import ElseOS.Base.Rendezvous
import ElseOS.Task.Placement

/-! Each endpoint of the kernel is a channel.

`channel` reads an endpoint and the trace of its calls as a channel. Every step of the
kernel is one act on it or leaves it alone, whatever the threads do. -/

set_option autoImplicit false

namespace ElseOS

open Base.Rendezvous (Channel Act pending)

def Event.atEndpoint (ep : EndpointRef) : Event → Option (Base.Rendezvous.Event Tid Message)
  | .sent target tid msg => if target = ep then some (.sent tid msg) else none
  | .senderBlocked target tid msg => if target = ep then some (.senderBlocked tid msg) else none
  | .sendCompleted target tid msg => if target = ep then some (.sendCompleted tid msg) else none
  | .receiving target tid => if target = ep then some (.receiving tid) else none
  | .receiverBlocked target tid => if target = ep then some (.receiverBlocked tid) else none
  | .delivered target sender receiver msg => if target = ep then some (.delivered sender receiver msg) else none
  | .taken target sender receiver msg => if target = ep then some (.taken sender receiver msg) else none
  | .received target tid msg => if target = ep then some (.received tid msg) else none
  | _ => none

/-- The thread that is inside a suspending call and has not been switched away from. -/
def Cpu.leaving : Cpu → Option (Tid × BlockingCall)
  | .dispatching (some tid) call => some (tid, call)
  | .idle tid call => some (tid, call)
  | _ => none

namespace Kernel

def log (k : Kernel) (ep : EndpointRef) : List (Base.Rendezvous.Event Tid Message) :=
  k.trace.filterMap (Event.atEndpoint ep)

def senders (k : Kernel) (ep : EndpointRef) : List (Tid × Message) := (k.meeting ep).sending

def receivers (k : Kernel) (ep : EndpointRef) : List (Tid × MessagePtr) := (k.meeting ep).receiving

def channel (k : Kernel) (ep : EndpointRef) : Channel Tid Message :=
  ⟨k.senders ep, (k.receivers ep).map Prod.fst, k.log ep⟩

@[simp] theorem log_emit (k : Kernel) (event : Event) (ep : EndpointRef) :
    (k.emit event).log ep = (event.atEndpoint ep).toList ++ k.log ep := by
  unfold log emit
  cases seen : event.atEndpoint ep with
  | none => simp [List.filterMap_cons_none seen]
  | some event => simp [List.filterMap_cons_some seen]

@[simp] theorem log_setEndpoint (k : Kernel) (ep : EndpointRef) (state : EndpointState) :
    (k.setEndpoint ep state).log = k.log := rfl

@[simp] theorem log_pushBack (k : Kernel) (thread : Thread) : (k.pushBack thread).log = k.log := rfl

@[simp] theorem log_writeBuffer (k : Kernel) (tid : Tid) (msg : Message) : (k.writeBuffer tid msg).log = k.log := rfl

@[simp] theorem log_block (k : Kernel) (ptr : StatePtr) (call : BlockingCall) : (k.block ptr call).log = k.log := rfl

/-! ## Where each thread stands in its receive -/

def Settled (k : Kernel) (ep : EndpointRef) (tid : Tid) : Prop :=
  tid ∉ (k.channel ep).receivers ∧ pending tid (k.log ep) = none

theorem Settled.canReceive {k : Kernel} {ep : EndpointRef} {tid : Tid} (settled : k.Settled ep tid) :
    (k.channel ep).CanReceive tid := settled

/-- A thread suspended in a receive waits in the queue or has its message in `msg_buf`; one
suspended elsewhere is settled. -/
def Waits (k : Kernel) (ep : EndpointRef) (tid : Tid) (asked : Option EndpointRef) : Prop :=
  if asked = some ep then tid ∈ (k.channel ep).receivers ∨ pending tid (k.log ep) = some (k.msgBuf tid)
  else k.Settled ep tid

structure Served (k : Kernel) : Prop where
  frames : ∀ {tid saved resume}, k.frames tid = some (saved, resume) → ∀ ep, k.Waits ep tid resume.receivesFrom
  queued : ∀ {ep entry}, entry ∈ k.receivers ep → entry.2.owner = entry.1 ∧ pending entry.1 (k.log ep) = none
  fresh : ∀ {tid}, k.nextTid ≤ tid → k.frames tid = none ∧ ∀ ep, k.Settled ep tid

structure Attended (k : Kernel) : Prop where
  leaving : ∀ {tid call}, k.cpu.leaving = some (tid, call) →
    tid < k.nextTid ∧ ∀ ep, k.Waits ep tid call.receivesFrom
  running : ∀ {tid}, k.cpu = .running tid → k.frames tid = none ∧ ∀ ep, k.Settled ep tid

variable {k after : Kernel}

structure SameIpc (k after : Kernel) : Prop where
  meeting : after.meeting = k.meeting
  log : after.log = k.log
  msgBuf : after.msgBuf = k.msgBuf
  nextTid : k.nextTid ≤ after.nextTid

namespace SameIpc

theorem refl (k : Kernel) : k.SameIpc k := ⟨rfl, rfl, rfl, Nat.le_refl _⟩

theorem trans {middle : Kernel} (first : k.SameIpc middle) (second : middle.SameIpc after) : k.SameIpc after :=
  ⟨second.meeting.trans first.meeting, second.log.trans first.log, second.msgBuf.trans first.msgBuf,
    Nat.le_trans first.nextTid second.nextTid⟩

theorem channel (same : k.SameIpc after) (ep : EndpointRef) : after.channel ep = k.channel ep := by
  simp only [Kernel.channel, senders, receivers, same.meeting, same.log]

theorem receivers (same : k.SameIpc after) (ep : EndpointRef) : after.receivers ep = k.receivers ep := by
  simp only [Kernel.receivers, same.meeting]

theorem settled (same : k.SameIpc after) {ep : EndpointRef} {tid : Tid} : after.Settled ep tid ↔ k.Settled ep tid := by
  rw [Settled, Settled, same.channel, same.log]

theorem waits (same : k.SameIpc after) {ep : EndpointRef} {tid : Tid} {asked : Option EndpointRef} :
    after.Waits ep tid asked ↔ k.Waits ep tid asked := by
  rw [Waits, Waits, same.channel, same.log, same.msgBuf, same.settled]

theorem served (same : k.SameIpc after) (frames : after.frames = k.frames) (served : k.Served) : after.Served where
  frames found ep := same.waits.mpr (served.frames (frames ▸ found) ep)
  queued member := by
    rw [same.receivers] at member
    rw [same.log]
    exact served.queued member
  fresh unused := by
    have unusedBefore := Nat.le_trans same.nextTid unused
    rw [frames]
    exact ⟨(served.fresh unusedBefore).1, fun ep => same.settled.mpr ((served.fresh unusedBefore).2 ep)⟩

theorem attended (same : k.SameIpc after) (frames : after.frames = k.frames)
    (leaving : ∀ {tid call}, after.cpu.leaving = some (tid, call) → k.cpu.leaving = some (tid, call))
    (running : ∀ {tid}, after.cpu = .running tid → k.cpu = .running tid) (attended : k.Attended) :
    after.Attended where
  leaving left := by
    obtain ⟨used, waits⟩ := attended.leaving (leaving left)
    exact ⟨Nat.lt_of_lt_of_le used same.nextTid, fun ep => same.waits.mpr (waits ep)⟩
  running runs := by
    rw [frames]
    exact ⟨(attended.running (running runs)).1,
      fun ep => same.settled.mpr ((attended.running (running runs)).2 ep)⟩

end SameIpc

/-! ## Switching to a thread -/

theorem unswitched_buffers : Unswitched fun k => (k.msgBuf, k.nextTid) where
  cpu _ _ := rfl
  frames _ _ := rfl
  stateToUpdate _ _ := rfl
  emit _ _ _ := rfl
  writeState k ptr state := by cases ptr <;> rfl

@[simp] theorem log_afterSwitch (k : Kernel) (rsp : UInt64) : (k.afterSwitch rsp).log = k.log := by
  funext ep
  unfold afterSwitch
  split
  next => rfl
  next ptr _ =>
    have written := log_emit (k.writeState ptr (.cooperative rsp)) (.stateWritten ptr.tid (.cooperative rsp)) ep
    exact written.trans (by simp [Event.atEndpoint, log, trace_writeState])

theorem log_continueAt (k : Kernel) (tid : Tid) (resume : Resume) (rax : UInt64) (ep : EndpointRef) :
    (k.continueAt tid resume rax).log ep =
      if resume.receivesFrom = some ep then .received tid (k.msgBuf tid) :: k.log ep else k.log ep := by
  have finished : (if resume.finishesSwitch then k.afterSwitch rax else k).log ep = k.log ep := by
    split
    · exact congrFun (log_afterSwitch k rax) ep
    · rfl
  have kept : ({ (if resume.finishesSwitch then k.afterSwitch rax else k) with cpu := .running tid } : Kernel).log ep =
      k.log ep := finished
  have buffer : (if resume.finishesSwitch then k.afterSwitch rax else k).msgBuf tid = k.msgBuf tid := by
    split
    · exact congrFun (congrArg Prod.fst (unswitched_buffers.afterSwitch k rax)) tid
    · rfl
  unfold continueAt
  cases resume.receivesFrom with
  | none => exact finished
  | some target =>
    dsimp only
    rw [log_emit, kept, buffer]
    by_cases same : target = ep
    · simp [Event.atEndpoint, same]
    · simp [Event.atEndpoint, same]

structure Continues (k after : Kernel) (tid : Tid) (resume : Resume) : Prop where
  meeting : after.meeting = k.meeting
  msgBuf : after.msgBuf = k.msgBuf
  nextTid : after.nextTid = k.nextTid
  frames : after.frames = Function.update k.frames tid none
  cpu : after.cpu = .running tid
  log : ∀ ep, after.log ep =
    if resume.receivesFrom = some ep then .received tid (k.msgBuf tid) :: k.log ep else k.log ep

/-- A switch that finds no frame changes nothing the endpoints see. -/
theorem resume_seen (k : Kernel) (tid : Tid) (state : SavedThreadState) (rax : UInt64) :
    (k.SameIpc (k.resume tid state rax) ∧ (k.resume tid state rax).frames = k.frames ∧
      (k.resume tid state rax).cpu = .astray tid) ∨
    ∃ resume, k.frames tid = some (state, resume) ∧ k.Continues (k.resume tid state rax) tid resume := by
  have quiet : ∀ ep, (k.emit (.dispatched tid state)).log ep = k.log ep := by
    intro ep
    simp [Event.atEndpoint]
  have buffers := unswitched_buffers.resume k tid state rax
  rcases k.resume_cases tid state rax with ⟨_, lost⟩ | ⟨resume, frame, found⟩
  · left
    rw [lost]
    exact ⟨⟨rfl, funext quiet, rfl, Nat.le_refl _⟩, rfl, rfl⟩
  · refine .inr ⟨resume, frame, unswitched_meeting.resume k tid state rax, congrArg Prod.fst buffers,
      congrArg Prod.snd buffers, ?_, ?_, ?_⟩
    · rw [found, frames_continueAt]
    · rw [found]
      unfold continueAt
      cases resume.receivesFrom <;> rfl
    · intro ep
      rw [found, log_continueAt]
      simp only [← quiet ep]
      rfl

namespace Continues

variable {tid : Tid} {resume : Resume}

theorem receivers (continues : k.Continues after tid resume) (ep : EndpointRef) :
    after.receivers ep = k.receivers ep := by
  simp only [Kernel.receivers, continues.meeting]

theorem pending_other (continues : k.Continues after tid resume) {other : Tid} (different : other ≠ tid)
    (ep : EndpointRef) : pending other (after.log ep) = pending other (k.log ep) := by
  rw [continues.log]
  split
  · simp [pending, different.symm]
  · rfl

theorem settled_other (continues : k.Continues after tid resume) {other : Tid} (different : other ≠ tid)
    (ep : EndpointRef) : after.Settled ep other ↔ k.Settled ep other := by
  simp only [Settled, channel, continues.receivers, continues.pending_other different]

theorem waits_other (continues : k.Continues after tid resume) {other : Tid} (different : other ≠ tid)
    (ep : EndpointRef) {asked : Option EndpointRef} : after.Waits ep other asked ↔ k.Waits ep other asked := by
  simp only [Waits, channel, continues.receivers, continues.pending_other different, continues.msgBuf,
    continues.settled_other different]

theorem served (continues : k.Continues after tid resume) (served : k.Served) (used : tid < k.nextTid)
    (outside : ∀ ep, tid ∉ (k.channel ep).receivers) : after.Served where
  frames := by
    intro other saved next left ep
    rw [continues.frames] at left
    have different : other ≠ tid := by
      rintro rfl
      rw [Function.update_self] at left
      cases left
    rw [Function.update_of_ne different] at left
    exact (continues.waits_other different ep).mpr (served.frames left ep)
  queued := by
    intro ep entry member
    rw [continues.receivers] at member
    have different : entry.1 ≠ tid := by
      rintro rfl
      exact outside ep (List.mem_map_of_mem member)
    rw [continues.pending_other different]
    exact served.queued member
  fresh := by
    intro other unused
    rw [continues.nextTid] at unused
    have different : other ≠ tid := Nat.ne_of_gt (Nat.lt_of_lt_of_le used unused)
    rw [continues.frames, Function.update_of_ne different]
    exact ⟨(served.fresh unused).1, fun ep => (continues.settled_other different ep).mpr ((served.fresh unused).2 ep)⟩

theorem attended (continues : k.Continues after tid resume)
    (waits : ∀ ep, k.Waits ep tid resume.receivesFrom) (outside : ∀ ep, tid ∉ (k.channel ep).receivers) :
    after.Attended where
  leaving := by
    intro other call left
    rw [continues.cpu] at left
    cases left
  running := by
    intro other runs
    rw [continues.cpu] at runs
    cases runs
    refine ⟨by rw [continues.frames, Function.update_self], fun ep => ⟨?_, ?_⟩⟩
    · simpa only [channel, continues.receivers] using outside ep
    · rw [continues.log]
      by_cases asked : resume.receivesFrom = some ep
      · simp [asked, pending]
      · have settled := waits ep
        rw [Waits, if_neg asked] at settled
        rw [if_neg asked]
        exact settled.2

theorem channel_step (continues : k.Continues after tid resume)
    (waits : ∀ ep, k.Waits ep tid resume.receivesFrom) (outside : ∀ ep, tid ∉ (k.channel ep).receivers)
    (ep : EndpointRef) :
    after.channel ep = k.channel ep ∨ (k.channel ep).step (.finish tid) = some (after.channel ep) := by
  have senders : after.senders ep = k.senders ep := by simp only [Kernel.senders, continues.meeting]
  by_cases asked : resume.receivesFrom = some ep
  · right
    have handed := waits ep
    rw [Waits, if_pos asked] at handed
    have ready : pending tid (k.log ep) = some (k.msgBuf tid) := handed.resolve_left (outside ep)
    simp only [Channel.step, channel, ready, senders, continues.receivers, continues.log, if_pos asked]
  · left
    simp only [channel, senders, continues.receivers, continues.log, if_neg asked]

end Continues

/-- The frame a thread left tells what its resumption means to the endpoints: it returns the
message it was handed, or it touches none. -/
theorem Served.resume (served : k.Served) {tid : Tid} (state : SavedThreadState) (rax : UInt64)
    (outside : ∀ ep, tid ∉ (k.channel ep).receivers) :
    (k.resume tid state rax).Served ∧ (k.resume tid state rax).Attended ∧
    ∀ ep, (k.resume tid state rax).channel ep = k.channel ep ∨
      (k.channel ep).step (.finish tid) = some ((k.resume tid state rax).channel ep) := by
  rcases k.resume_seen tid state rax with ⟨same, frames, astray⟩ | ⟨resume, frame, continues⟩
  · refine ⟨same.served frames served, ⟨fun left => ?_, fun runs => ?_⟩, fun ep => .inl (same.channel ep)⟩
    · rw [astray] at left
      cases left
    · rw [astray] at runs
      cases runs
  · have used : tid < k.nextTid := by
      by_contra unused
      rw [(served.fresh (Nat.not_lt.mp unused)).1] at frame
      cases frame
    have waits := served.frames frame
    exact ⟨continues.served served used outside, continues.attended waits outside,
      continues.channel_step waits outside⟩

/-! ## One step -/

/-- The step sends to the endpoint while its receiver queue is empty but still in place. -/
def sendsIntoDrained (k : Kernel) (ep : EndpointRef) (op : Op) : Bool :=
  match k.sending op with
  | some (_, target, _) => decide (target = ep) && decide (k.meeting ep = .receivers [])
  | none => false

/-- The step receives from the endpoint while its sender queue is empty but still in place. -/
def receivesFromDrained (k : Kernel) (ep : EndpointRef) (op : Op) : Bool :=
  match k.receiving op with
  | some (_, target) => decide (target = ep) && decide (k.meeting ep = .senders [])
  | none => false

def Seen (k : Kernel) (op : Op) (after : Kernel) (ep : EndpointRef) : Prop :=
  (after.channel ep = k.channel ep ∧ k.sendsIntoDrained ep op = false ∧ k.receivesFromDrained ep op = false) ∨
  ∃ act, (k.channel ep).step act = some (after.channel ep) ∧
    act.dropped?.isSome = k.sendsIntoDrained ep op ∧ act.conjures = k.receivesFromDrained ep op

theorem Quiet.drained {op : Op} (quiet : k.Quiet op) (ep : EndpointRef) :
    k.sendsIntoDrained ep op = false ∧ k.receivesFromDrained ep op = false := by
  simp [sendsIntoDrained, receivesFromDrained, quiet.sending, quiet.receiving]

theorem SameIpc.seen (same : k.SameIpc after) {op : Op} (harmless : ∀ ep, k.sendsIntoDrained ep op = false ∧
    k.receivesFromDrained ep op = false) (ep : EndpointRef) : k.Seen op after ep :=
  .inl ⟨same.channel ep, harmless ep⟩

structure Carries (k : Kernel) (op : Op) (after : Kernel) : Prop where
  served : after.Served
  attended : after.Attended
  seen : ∀ ep, k.Seen op after ep

open Base (Located)

variable {loc : Tid → Option Place}

theorem receivers_eq (k : Kernel) (ep : EndpointRef) :
    (k.channel ep).receivers = k.occupants (.endpoint ep) ∨ (k.channel ep).receivers = [] := by
  cases mode : k.endpoints ep with
  | idle => exact .inr (by simp [channel, receivers, meeting, meetingOf, Meeting.receiving, mode])
  | sendersWaiting queue => exact .inr (by simp [channel, receivers, meeting, meetingOf, Meeting.receiving, mode])
  | receiversWaiting queue =>
    left
    simp [channel, receivers, meeting, meetingOf, Meeting.receiving, mode, occupants, residents, EndpointState.threads]

theorem outside_receivers (located : Located k.occupants loc) (place : Place) (tid : Tid)
    (stands : tid ∈ k.occupants place) (elsewhere : ∀ ep, place ≠ .endpoint ep) (ep : EndpointRef) :
    tid ∉ (k.channel ep).receivers := by
  intro member
  rcases k.receivers_eq ep with same | empty
  · rw [same] at member
    exact elsewhere ep (located.place_unique stands member)
  · rw [empty] at member
    cases member

theorem sameIpc_suspend (k : Kernel) (tid : Tid) (saved : SavedThreadState) (resume : Resume) :
    k.SameIpc (k.suspend tid saved resume) := by
  refine ⟨rfl, ?_, rfl, Nat.le_refl _⟩
  funext ep
  exact (log_emit k _ ep).trans (by simp [Event.atEndpoint])

theorem sameIpc_leave (k : Kernel) (source : Option Tid) (rsp : UInt64) (call : BlockingCall) (finishes : Bool) :
    k.SameIpc (k.leave source rsp call finishes) := by
  cases source with
  | none => exact .refl k
  | some tid => exact sameIpc_suspend k tid _ _

theorem sameIpc_makeCurrent (k : Kernel) (next : Thread) (rest : List Thread) : k.SameIpc (k.makeCurrent next rest) :=
  ⟨rfl, rfl, rfl, Nat.le_refl _⟩

theorem sameIpc_afterSwitch (k : Kernel) (rsp : UInt64) : k.SameIpc (k.afterSwitch rsp) :=
  ⟨unswitched_meeting.afterSwitch k rsp, log_afterSwitch k rsp,
    congrArg Prod.fst (unswitched_buffers.afterSwitch k rsp),
    Nat.le_of_eq (congrArg Prod.snd (unswitched_buffers.afterSwitch k rsp)).symm⟩

theorem sameIpc_retire (k : Kernel) (current : Thread) : k.SameIpc (k.retire current) := by
  refine ⟨meeting_retire current, ?_, ?_, ?_⟩
  · unfold retire
    cases current.processState <;> (funext ep; exact (log_emit _ _ ep).trans (by simp [Event.atEndpoint]; rfl))
  · unfold retire
    cases current.processState <;> rfl
  · unfold retire
    cases current.processState <;> exact Nat.le_refl _

/-- A thread about to be switched away from leaves a frame for what it waits for. -/
theorem Served.suspend (served : k.Served) {tid : Tid} {saved : SavedThreadState} {resume : Resume}
    (used : tid < k.nextTid) (waits : ∀ ep, k.Waits ep tid resume.receivesFrom) :
    (k.suspend tid saved resume).Served := by
  have same := sameIpc_suspend k tid saved resume
  refine ⟨?_, ?_, ?_⟩
  · intro other left next found ep
    rw [same.waits]
    by_cases self : other = tid
    · subst self
      have frame : (k.suspend other saved resume).frames other = some (saved, resume) := Function.update_self _ _ _
      rw [frame] at found
      cases found
      exact waits ep
    · have frame : (k.suspend tid saved resume).frames other = k.frames other := Function.update_of_ne self _ _
      rw [frame] at found
      exact served.frames found ep
  · intro ep entry member
    rw [same.receivers] at member
    rw [same.log]
    exact served.queued member
  · intro other unused
    have different : other ≠ tid := Nat.ne_of_gt (Nat.lt_of_lt_of_le used unused)
    have frame : (k.suspend tid saved resume).frames other = k.frames other := Function.update_of_ne different _ _
    rw [frame]
    exact ⟨(served.fresh unused).1, fun ep => same.settled.mpr ((served.fresh unused).2 ep)⟩

theorem carries_block {op : Op} (tid : Tid) (call : BlockingCall) (same : k.SameIpc after)
    (frames : after.frames = k.frames) (cpu : after.cpu = .dispatching (some tid) call)
    (elsewhere : call.receivesFrom = none) (used : tid < k.nextTid) (running : k.cpu = .running tid)
    (served : k.Served) (attended : k.Attended)
    (harmless : ∀ ep, k.sendsIntoDrained ep op = false ∧ k.receivesFromDrained ep op = false) :
    k.Carries op after := by
  refine ⟨same.served frames served, ⟨?_, ?_⟩, same.seen harmless⟩
  · intro other blocked left
    rw [cpu] at left
    cases left
    rw [elsewhere]
    refine ⟨Nat.lt_of_lt_of_le used same.nextTid, fun ep => ?_⟩
    rw [Waits, if_neg (by simp), same.settled]
    exact (attended.running running).2 ep
  · intro other runs
    rw [cpu] at runs
    cases runs

/-! ## Sends and receives -/

/-- A call replaced the queue of one endpoint and logged events there; it concerns the buffer
and the receives of one party only. -/
structure Exchanges (k after : Kernel) (ep : EndpointRef) (queue : Meeting)
    (events : List (Base.Rendezvous.Event Tid Message)) (party : Tid) : Prop where
  meeting : after.meeting = Function.update k.meeting ep queue
  log : ∀ other, after.log other = if other = ep then events ++ k.log ep else k.log other
  msgBuf : ∀ tid, tid ≠ party → after.msgBuf tid = k.msgBuf tid
  frames : after.frames = k.frames
  nextTid : after.nextTid = k.nextTid
  waiting : ∀ entry : Tid × MessagePtr, entry.1 ≠ party → (entry ∈ queue.receiving ↔ entry ∈ k.receivers ep)
  pendings : ∀ tid, tid ≠ party → pending tid (events ++ k.log ep) = pending tid (k.log ep)

namespace Exchanges

variable {ep : EndpointRef} {queue : Meeting} {events : List (Base.Rendezvous.Event Tid Message)} {party : Tid}

theorem receivers_mem (exchanges : k.Exchanges after ep queue events party) {entry : Tid × MessagePtr}
    (different : entry.1 ≠ party) (other : EndpointRef) :
    entry ∈ after.receivers other ↔ entry ∈ k.receivers other := by
  rw [receivers, exchanges.meeting]
  by_cases same : other = ep
  · subst same
    rw [Function.update_self]
    exact exchanges.waiting entry different
  · rw [Function.update_of_ne same, receivers]

theorem waiting_mem (exchanges : k.Exchanges after ep queue events party) {tid : Tid} (different : tid ≠ party)
    (other : EndpointRef) : tid ∈ (after.channel other).receivers ↔ tid ∈ (k.channel other).receivers := by
  simp only [channel, List.mem_map]
  constructor
  · rintro ⟨entry, member, rfl⟩
    exact ⟨entry, (exchanges.receivers_mem different other).mp member, rfl⟩
  · rintro ⟨entry, member, rfl⟩
    exact ⟨entry, (exchanges.receivers_mem different other).mpr member, rfl⟩

theorem pending_other (exchanges : k.Exchanges after ep queue events party) {tid : Tid} (different : tid ≠ party)
    (other : EndpointRef) : pending tid (after.log other) = pending tid (k.log other) := by
  rw [exchanges.log]
  by_cases same : other = ep
  · subst same
    rw [if_pos rfl]
    exact exchanges.pendings tid different
  · rw [if_neg same]

theorem settled_other (exchanges : k.Exchanges after ep queue events party) {tid : Tid} (different : tid ≠ party)
    (other : EndpointRef) : after.Settled other tid ↔ k.Settled other tid := by
  rw [Settled, Settled, exchanges.waiting_mem different, exchanges.pending_other different]

theorem waits_other (exchanges : k.Exchanges after ep queue events party) {tid : Tid} (different : tid ≠ party)
    (other : EndpointRef) {asked : Option EndpointRef} :
    after.Waits other tid asked ↔ k.Waits other tid asked := by
  rw [Waits, Waits, exchanges.waiting_mem different, exchanges.pending_other different, exchanges.msgBuf tid different,
    exchanges.settled_other different]

theorem settled_elsewhere (exchanges : k.Exchanges after ep queue events party) {other : EndpointRef}
    (different : other ≠ ep) {tid : Tid} : after.Settled other tid ↔ k.Settled other tid := by
  rw [Settled, Settled, channel, channel, receivers, receivers, exchanges.meeting, exchanges.log, if_neg different,
    Function.update_of_ne different]

theorem served (exchanges : k.Exchanges after ep queue events party) (served : k.Served) (used : party < k.nextTid)
    (frames : ∀ {saved resume}, k.frames party = some (saved, resume) →
      ∀ other, after.Waits other party resume.receivesFrom)
    (queued : ∀ {other entry}, entry ∈ after.receivers other → entry.1 = party →
      entry.2.owner = entry.1 ∧ pending entry.1 (after.log other) = none) : after.Served where
  frames := by
    intro tid saved resume found other
    rw [exchanges.frames] at found
    by_cases self : tid = party
    · subst self
      exact frames found other
    · exact (exchanges.waits_other self other).mpr (served.frames found other)
  queued := by
    intro other entry member
    by_cases self : entry.1 = party
    · exact queued member self
    · rw [exchanges.pending_other self]
      exact served.queued ((exchanges.receivers_mem self other).mp member)
  fresh := by
    intro tid unused
    rw [exchanges.nextTid] at unused
    have different : tid ≠ party := Nat.ne_of_gt (Nat.lt_of_lt_of_le used unused)
    rw [exchanges.frames]
    exact ⟨(served.fresh unused).1,
      fun other => (exchanges.settled_other different other).mpr ((served.fresh unused).2 other)⟩

theorem channel_elsewhere (exchanges : k.Exchanges after ep queue events party) {other : EndpointRef}
    (different : other ≠ ep) : after.channel other = k.channel other := by
  simp only [channel, senders, receivers, exchanges.meeting, exchanges.log, if_neg different,
    Function.update_of_ne different]

theorem channel_here (exchanges : k.Exchanges after ep queue events party) :
    after.channel ep = ⟨queue.sending, queue.receiving.map Prod.fst, events ++ k.log ep⟩ := by
  simp only [channel, senders, receivers, exchanges.meeting, exchanges.log, if_true, Function.update_self]

end Exchanges

section Calls

variable {op : Op} {current : Thread} {ep : EndpointRef} {msg : Message}

theorem drained_of_sending (reached : k.sending op = some (current, ep, msg)) (other : EndpointRef) :
    k.sendsIntoDrained other op = (decide (ep = other) && decide (k.meeting other = .receivers [])) ∧
    k.receivesFromDrained other op = false := by
  obtain ⟨_, _, _, rfl, _⟩ := sending_spec reached
  exact ⟨by simp only [sendsIntoDrained, reached], rfl⟩

theorem drained_of_receiving (reached : k.receiving op = some (current, ep)) (other : EndpointRef) :
    k.sendsIntoDrained other op = false ∧
    k.receivesFromDrained other op = (decide (ep = other) && decide (k.meeting other = .senders [])) := by
  obtain ⟨_, _, _, rfl, _⟩ := receiving_spec reached
  exact ⟨rfl, by simp only [receivesFromDrained, reached]⟩

theorem drained_elsewhere_of_sending (reached : k.sending op = some (current, ep, msg)) (other : EndpointRef)
    (apart : ep ≠ other) : k.sendsIntoDrained other op = false ∧ k.receivesFromDrained other op = false := by
  obtain ⟨sends, receives⟩ := drained_of_sending reached other
  exact ⟨by simp [sends, apart], receives⟩

theorem drained_elsewhere_of_receiving (reached : k.receiving op = some (current, ep)) (other : EndpointRef)
    (apart : ep ≠ other) : k.sendsIntoDrained other op = false ∧ k.receivesFromDrained other op = false := by
  obtain ⟨sends, receives⟩ := drained_of_receiving reached other
  exact ⟨sends, by simp [receives, apart]⟩

theorem exchanges_deliver (current : Thread) (msg : Message) {receiver : Thread} {ptr : MessagePtr}
    {queue : List (Thread × MessagePtr)}
    (mode : k.endpoints ep = .receiversWaiting ((receiver, ptr) :: queue)) (owned : ptr.owner = receiver.tid) :
    k.Exchanges ((k.emit (.sent ep current.tid msg)).deliver current ep msg receiver ptr queue) ep
      (meetingOf (.receiversWaiting queue))
      [.sendCompleted current.tid msg, .delivered current.tid receiver.tid msg, .sent current.tid msg]
      receiver.tid where
  meeting := meeting_setEndpoint _ _ _
  log other := by
    by_cases same : ep = other
    · subst same
      simp [Kernel.deliver, Event.atEndpoint]
    · have different : other ≠ ep := fun equal => same equal.symm
      simp [Kernel.deliver, Event.atEndpoint, same, different]
  msgBuf tid different := Function.update_of_ne (owned ▸ different) _ _
  frames := rfl
  nextTid := rfl
  waiting entry different := by
    have other : entry ≠ (receiver.tid, ptr) := fun same => different (congrArg Prod.fst same)
    simp [receivers, meeting, mode, meetingOf, Meeting.receiving, other]
  pendings tid different := by simp [pending, different.symm]

theorem exchanges_blockSender (current : Thread) (msg : Message)
    (mode : ∀ queue, k.endpoints ep ≠ .receiversWaiting queue) :
    k.Exchanges ((k.emit (.sent ep current.tid msg)).blockSender current ep msg (k.endpoints ep).senders) ep
      (meetingOf (.sendersWaiting ((k.endpoints ep).senders ++ [(current, msg)])))
      [.senderBlocked current.tid msg, .sent current.tid msg] current.tid where
  meeting := meeting_setEndpoint _ _ _
  log other := by
    by_cases same : ep = other
    · subst same
      simp [Kernel.blockSender, Event.atEndpoint]
    · have different : other ≠ ep := fun equal => same equal.symm
      simp [Kernel.blockSender, Event.atEndpoint, same, different]
  msgBuf _ _ := rfl
  frames := rfl
  nextTid := rfl
  waiting entry _ := by
    cases state : k.endpoints ep with
    | receiversWaiting queue => exact absurd state (mode queue)
    | _ => simp [receivers, meeting, state, meetingOf, Meeting.receiving]
  pendings _ _ := by simp [pending]

theorem exchanges_drop (k : Kernel) (current : Thread) (ep : EndpointRef) (msg : Message) :
    k.Exchanges ((k.emit (.sent ep current.tid msg)).emit (.sendCompleted ep current.tid msg)) ep (k.meeting ep)
      [.sendCompleted current.tid msg, .sent current.tid msg] current.tid where
  meeting := (Function.update_eq_self ep k.meeting).symm
  log other := by
    by_cases same : ep = other
    · subst same
      simp [Event.atEndpoint]
    · have different : other ≠ ep := fun equal => same equal.symm
      simp [Event.atEndpoint, same, different]
  msgBuf _ _ := rfl
  frames := rfl
  nextTid := rfl
  waiting _ _ := Iff.rfl
  pendings _ _ := by simp [pending]

theorem exchanges_take (current : Thread) {sender : Thread} {queue : List (Thread × Message)}
    (mode : k.endpoints ep = .sendersWaiting ((sender, msg) :: queue)) :
    k.Exchanges (((k.emit (.receiving ep current.tid)).writeBuffer current.tid .zero).take current ep sender msg queue)
      ep (meetingOf (.sendersWaiting queue))
      [.received current.tid msg, .sendCompleted sender.tid msg, .taken sender.tid current.tid msg,
        .receiving current.tid] current.tid where
  meeting := meeting_setEndpoint _ _ _
  log other := by
    by_cases same : ep = other
    · subst same
      simp [Kernel.take, Event.atEndpoint]
    · have different : other ≠ ep := fun equal => same equal.symm
      simp [Kernel.take, Event.atEndpoint, same, different]
  msgBuf _ different := Function.update_of_ne different _ _
  frames := rfl
  nextTid := rfl
  waiting _ _ := by simp [receivers, meeting, mode, meetingOf, Meeting.receiving]
  pendings _ different := by simp [pending, different.symm]

theorem exchanges_blockReceiver (current : Thread) (mode : ∀ queue, k.endpoints ep ≠ .sendersWaiting queue) :
    k.Exchanges (((k.emit (.receiving ep current.tid)).writeBuffer current.tid .zero).blockReceiver current ep
      (k.endpoints ep).receivers) ep
      (meetingOf (.receiversWaiting ((k.endpoints ep).receivers ++ [(current, ⟨current.tid⟩)])))
      [.receiverBlocked current.tid, .receiving current.tid] current.tid where
  meeting := meeting_setEndpoint _ _ _
  log other := by
    by_cases same : ep = other
    · subst same
      simp [Kernel.blockReceiver, Event.atEndpoint]
    · have different : other ≠ ep := fun equal => same equal.symm
      simp [Kernel.blockReceiver, Event.atEndpoint, same, different]
  msgBuf _ different := Function.update_of_ne different _ _
  frames := rfl
  nextTid := rfl
  waiting entry different := by
    have other : entry ≠ (current.tid, ⟨current.tid⟩) := fun same => different (congrArg Prod.fst same)
    cases state : k.endpoints ep with
    | sendersWaiting queue => exact absurd state (mode queue)
    | _ => simp [receivers, meeting, state, meetingOf, Meeting.receiving, EndpointState.receivers, other]
  pendings _ _ := by simp [pending]

theorem exchanges_conjure (k : Kernel) (current : Thread) (ep : EndpointRef) :
    k.Exchanges (((k.emit (.receiving ep current.tid)).writeBuffer current.tid .zero).emit
      (.received ep current.tid .zero)) ep (k.meeting ep)
      [.received current.tid .zero, .receiving current.tid] current.tid where
  meeting := (Function.update_eq_self ep k.meeting).symm
  log other := by
    by_cases same : ep = other
    · subst same
      simp [Event.atEndpoint]
    · have different : other ≠ ep := fun equal => same equal.symm
      simp [Event.atEndpoint, same, different]
  msgBuf _ different := Function.update_of_ne different _ _
  frames := rfl
  nextTid := rfl
  waiting _ _ := Iff.rfl
  pendings _ different := by simp [pending, different.symm]

theorem Exchanges.seen {queue : Meeting} {events : List (Base.Rendezvous.Event Tid Message)} {party : Tid}
    (exchanges : k.Exchanges after ep queue events party)
    (act : Base.Rendezvous.Act Tid Message)
    (drained : ∀ other, ep ≠ other → k.sendsIntoDrained other op = false ∧ k.receivesFromDrained other op = false)
    (acted : (k.channel ep).step act = some ⟨queue.sending, queue.receiving.map Prod.fst, events ++ k.log ep⟩)
    (drops : act.dropped?.isSome = k.sendsIntoDrained ep op) (conjures : act.conjures = k.receivesFromDrained ep op)
    (other : EndpointRef) : k.Seen op after other := by
  by_cases same : ep = other
  · subst same
    exact .inr ⟨act, by rw [exchanges.channel_here]; exact acted, drops, conjures⟩
  · exact .inl ⟨exchanges.channel_elsewhere fun equal => same equal.symm, drained other same⟩

theorem carries_settled {queue : Meeting} {events : List (Base.Rendezvous.Event Tid Message)} {tid : Tid}
    (exchanges : k.Exchanges after ep queue events tid) (running : k.cpu = .running tid) (used : tid < k.nextTid)
    (served : k.Served) (attended : k.Attended) (absent : tid ∉ queue.receiving.map Prod.fst)
    (returned : pending tid (events ++ k.log ep) = none)
    (cpu : after.cpu = .running tid ∨ ∃ call, after.cpu = .dispatching (some tid) call ∧ call.receivesFrom = none)
    (seen : ∀ other, k.Seen op after other) : k.Carries op after := by
  obtain ⟨frameless, before⟩ := attended.running running
  have settled : ∀ other, after.Settled other tid := by
    intro other
    by_cases same : other = ep
    · subst same
      rw [Settled, exchanges.channel_here, exchanges.log, if_pos rfl]
      exact ⟨absent, returned⟩
    · exact (exchanges.settled_elsewhere same).mpr (before other)
  refine ⟨exchanges.served served used ?_ ?_, ⟨?_, ?_⟩, seen⟩
  · intro saved resume found
    rw [frameless] at found
    cases found
  · rintro other entry member rfl
    exact absurd (List.mem_map_of_mem member) (settled other).1
  · intro other call left
    rcases cpu with cpu | ⟨blocked, cpu, elsewhere⟩
    · rw [cpu] at left
      cases left
    · rw [cpu] at left
      cases left
      rw [exchanges.nextTid, elsewhere]
      exact ⟨used, fun other => by rw [Waits, if_neg (by simp)]; exact settled other⟩
  · intro other runs
    rcases cpu with cpu | ⟨blocked, cpu, _⟩
    · rw [cpu] at runs
      cases runs
      rw [exchanges.frames]
      exact ⟨frameless, settled⟩
    · rw [cpu] at runs
      cases runs

theorem carries_deliver {receiver : Thread} {ptr : MessagePtr} {queue : List (Thread × MessagePtr)}
    {moved : Tid → Option Place} (reached : k.sending op = some (current, ep, msg))
    (mode : k.endpoints ep = .receiversWaiting ((receiver, ptr) :: queue)) (placed : k.Placed loc)
    (located : Located ((k.emit (.sent ep current.tid msg)).deliver current ep msg receiver ptr queue).occupants moved)
    (running : k.cpu = .running current.tid) (served : k.Served) (attended : k.Attended) :
    k.Carries op ((k.emit (.sent ep current.tid msg)).deliver current ep msg receiver ptr queue) := by
  have first : (receiver.tid, ptr) ∈ k.receivers ep := by
    simp [receivers, meeting, mode, meetingOf, Meeting.receiving]
  have waiting : receiver.tid ∈ (k.channel ep).receivers := List.mem_map_of_mem first
  have owned : ptr.owner = receiver.tid := (served.queued first).1
  have stands : receiver.tid ∈ k.occupants (.endpoint ep) := by
    simp [occupants_endpoint mode, EndpointState.threads]
  have exchanges := exchanges_deliver current msg mode owned
  have absent := outside_receivers located .runQueue receiver.tid (by simp [Kernel.deliver]) (by simp)
  have settled := (attended.running running).2
  have different : current.tid ≠ receiver.tid := fun same => (settled ep).1 (same ▸ waiting)
  refine ⟨exchanges.served served (placed.tid_lt stands) ?_ ?_, ⟨?_, ?_⟩, ?_⟩
  -- the receiver: its frame stands in a `sys_recv` on this endpoint, whose result is there now
  · intro saved resume found other
    have waits := served.frames found
    have asked : resume.receivesFrom = some ep := by
      by_contra elsewhere
      have settled := waits ep
      rw [Waits, if_neg elsewhere] at settled
      exact settled.1 waiting
    by_cases same : other = ep
    · subst same
      rw [Waits, if_pos asked, exchanges.log, if_pos rfl]
      right
      simp [Kernel.deliver, pending, writeBuffer, setEndpoint, pushBack, emit, owned]
    · have before := waits other
      have elsewhere : resume.receivesFrom ≠ some other := by
        rw [asked]
        exact fun equal => same (Option.some.inj equal).symm
      rw [Waits, if_neg elsewhere] at before ⊢
      exact (exchanges.settled_elsewhere same).mpr before
  · rintro other entry member same
    exact absurd (same ▸ List.mem_map_of_mem member) (absent other)
  · intro other call left
    have cpu : k.cpu.leaving = some (other, call) := left
    rw [running] at cpu
    cases cpu
  -- the sender goes on running, and is settled everywhere as before
  · intro other runs
    have cpu : k.cpu = .running other := runs
    rw [running] at cpu
    cases cpu
    exact ⟨(attended.running running).1, fun other => (exchanges.settled_other different other).mpr (settled other)⟩
  · refine exchanges.seen (.send current.tid msg) (drained_elsewhere_of_sending reached) ?_ ?_ ?_
    · simp [Channel.step, channel, receivers, senders, meeting, mode, meetingOf, Meeting.receiving, Meeting.sending]
    · rw [(drained_of_sending reached ep).1]
      simp [Act.dropped?, meeting, mode, meetingOf]
    · rw [(drained_of_sending reached ep).2]
      rfl

theorem carries_blockSender (reached : k.sending op = some (current, ep, msg))
    (mode : ∀ queue, k.endpoints ep ≠ .receiversWaiting queue) (used : current.tid < k.nextTid)
    (running : k.cpu = .running current.tid) (served : k.Served) (attended : k.Attended) :
    k.Carries op ((k.emit (.sent ep current.tid msg)).blockSender current ep msg (k.endpoints ep).senders) := by
  have exchanges := exchanges_blockSender current msg mode
  have settled := (attended.running running).2 ep
  refine carries_settled exchanges running used served attended ?_ ?_ (.inr ⟨_, rfl, rfl⟩) ?_
  · simp [meetingOf, Meeting.receiving]
  · simpa [pending] using settled.2
  · refine exchanges.seen (.send current.tid msg) (drained_elsewhere_of_sending reached) ?_ ?_ ?_
    · cases state : k.endpoints ep with
      | receiversWaiting queue => exact absurd state (mode queue)
      | _ =>
        simp [Channel.step, channel, receivers, senders, meeting, state, meetingOf, Meeting.receiving,
          Meeting.sending, EndpointState.senders]
    · rw [(drained_of_sending reached ep).1]
      cases state : k.endpoints ep with
      | receiversWaiting queue => exact absurd state (mode queue)
      | _ => simp [Act.dropped?, meeting, state, meetingOf]
    · rw [(drained_of_sending reached ep).2]
      rfl

theorem carries_drop (reached : k.sending op = some (current, ep, msg))
    (mode : k.endpoints ep = .receiversWaiting []) (used : current.tid < k.nextTid)
    (running : k.cpu = .running current.tid) (served : k.Served) (attended : k.Attended) :
    k.Carries op ((k.emit (.sent ep current.tid msg)).emit (.sendCompleted ep current.tid msg)) := by
  have exchanges := exchanges_drop k current ep msg
  have settled := (attended.running running).2 ep
  refine carries_settled exchanges running used served attended settled.1 ?_ (.inl running) ?_
  · simpa [pending] using settled.2
  · refine exchanges.seen (.drop current.tid msg) (drained_elsewhere_of_sending reached) ?_ ?_ ?_
    · rfl
    · rw [(drained_of_sending reached ep).1]
      simp [Act.dropped?, meeting, mode, meetingOf]
    · rw [(drained_of_sending reached ep).2]
      rfl

theorem carries_take {sender : Thread} {queue : List (Thread × Message)}
    (reached : k.receiving op = some (current, ep)) (mode : k.endpoints ep = .sendersWaiting ((sender, msg) :: queue))
    (used : current.tid < k.nextTid) (running : k.cpu = .running current.tid) (served : k.Served)
    (attended : k.Attended) :
    k.Carries op (((k.emit (.receiving ep current.tid)).writeBuffer current.tid .zero).take current ep sender msg
      queue) := by
  have exchanges := exchanges_take current mode
  have settled := (attended.running running).2 ep
  refine carries_settled exchanges running used served attended ?_ ?_ (.inl running) ?_
  · simp [meetingOf, Meeting.receiving]
  · simp [pending]
  · refine exchanges.seen (.receive current.tid) (drained_elsewhere_of_receiving reached) ?_ ?_ ?_
    · simp only [Channel.step]
      rw [if_pos settled.canReceive]
      simp [channel, receivers, senders, meeting, mode, meetingOf, Meeting.receiving, Meeting.sending]
    · rw [(drained_of_receiving reached ep).1]
      rfl
    · rw [(drained_of_receiving reached ep).2]
      simp [Act.conjures, meeting, mode, meetingOf]

theorem carries_conjure (reached : k.receiving op = some (current, ep))
    (mode : k.endpoints ep = .sendersWaiting []) (used : current.tid < k.nextTid)
    (running : k.cpu = .running current.tid) (served : k.Served) (attended : k.Attended) :
    k.Carries op (((k.emit (.receiving ep current.tid)).writeBuffer current.tid .zero).emit
      (.received ep current.tid .zero)) := by
  have exchanges := exchanges_conjure k current ep
  have settled := (attended.running running).2 ep
  refine carries_settled exchanges running used served attended settled.1 ?_ (.inl running) ?_
  · simp [pending]
  · refine exchanges.seen (.conjure current.tid .zero) (drained_elsewhere_of_receiving reached) ?_ ?_ ?_
    · simp only [Channel.step]
      rw [if_pos settled.canReceive]
      rfl
    · rw [(drained_of_receiving reached ep).1]
      rfl
    · rw [(drained_of_receiving reached ep).2]
      simp [Act.conjures, meeting, mode, meetingOf]

theorem receiving_append (k : Kernel) (ep : EndpointRef) (thread : Thread) (ptr : MessagePtr) :
    (meetingOf (.receiversWaiting ((k.endpoints ep).receivers ++ [(thread, ptr)]))).receiving =
      k.receivers ep ++ [(thread.tid, ptr)] := by
  cases state : k.endpoints ep <;>
    simp [receivers, meeting, state, meetingOf, Meeting.receiving, EndpointState.receivers]

theorem carries_blockReceiver (reached : k.receiving op = some (current, ep))
    (mode : ∀ queue, k.endpoints ep ≠ .sendersWaiting queue) (used : current.tid < k.nextTid)
    (running : k.cpu = .running current.tid) (served : k.Served) (attended : k.Attended) :
    k.Carries op (((k.emit (.receiving ep current.tid)).writeBuffer current.tid .zero).blockReceiver current ep
      (k.endpoints ep).receivers) := by
  have exchanges := exchanges_blockReceiver current mode
  obtain ⟨frameless, settled⟩ := attended.running running
  refine ⟨exchanges.served served used ?_ ?_, ⟨?_, ?_⟩, ?_⟩
  -- the caller has no frame yet: it is still on the CPU
  · intro saved resume found
    rw [frameless] at found
    cases found
  · rintro other entry member self
    by_cases same : other = ep
    · subst same
      rw [receivers, exchanges.meeting, Function.update_self, receiving_append] at member
      rcases List.mem_append.mp member with old | new
      · exact absurd (self ▸ List.mem_map_of_mem old) (settled other).1
      · rw [List.mem_singleton.mp new, exchanges.log, if_pos rfl]
        exact ⟨rfl, by simpa [pending] using (settled other).2⟩
    · have settledThere := (exchanges.settled_elsewhere same).mpr (settled other)
      exact absurd (self ▸ List.mem_map_of_mem member) settledThere.1
  · intro other call left
    cases left
    refine ⟨used, fun other => ?_⟩
    by_cases same : other = ep
    · subst same
      have asked : (BlockingCall.sysRecv other).receivesFrom = some other := rfl
      rw [Waits, if_pos asked, exchanges.channel_here]
      left
      simp [meetingOf, Meeting.receiving, StatePtr.tid]
    · have elsewhere : (BlockingCall.sysRecv ep).receivesFrom ≠ some other :=
        fun equal => same (Option.some.inj equal).symm
      rw [Waits, if_neg elsewhere]
      exact (exchanges.settled_elsewhere same).mpr (settled other)
  · intro other runs
    cases runs
  · refine exchanges.seen (.receive current.tid) (drained_elsewhere_of_receiving reached) ?_ ?_ ?_
    · simp only [Channel.step]
      rw [if_pos (settled ep).canReceive]
      cases state : k.endpoints ep with
      | sendersWaiting queue => exact absurd state (mode queue)
      | _ =>
        simp [channel, receivers, senders, meeting, state, meetingOf, Meeting.receiving, Meeting.sending,
          EndpointState.receivers]
    · rw [(drained_of_receiving reached ep).1]
      rfl
    · rw [(drained_of_receiving reached ep).2]
      cases state : k.endpoints ep with
      | sendersWaiting queue => exact absurd state (mode queue)
      | _ => simp [Act.conjures, meeting, state, meetingOf]

end Calls

end Kernel

end ElseOS
