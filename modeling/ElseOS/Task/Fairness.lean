import ElseOS.Task.Moves

/-! Threads are dispatched in the order in which they became runnable.

The dispatches made so far, followed by the run queue, form one list. Every operation of the
scheduler only adds to its end: a dispatch moves the boundary between the two parts, and a
thread that becomes runnable goes to the back. -/

set_option autoImplicit false

namespace ElseOS

def Event.dispatchedTid : Event → Option Tid
  | .dispatched tid _ => some tid
  | _ => none

namespace Kernel

variable {k after : Kernel} {op : Op}

def dispatches (k : Kernel) : List Tid := (k.trace.filterMap Event.dispatchedTid).reverse

def waiting (k : Kernel) : List Tid := k.occupants .runQueue

def lineup (k : Kernel) : List Tid := k.dispatches ++ k.waiting

theorem dispatches_emit (event : Event) : (k.emit event).dispatches = k.dispatches ++ event.dispatchedTid.toList := by
  unfold dispatches emit
  cases is : event.dispatchedTid <;> simp [is]

@[simp] theorem dispatches_suspend (tid : Tid) (state : SavedThreadState) (resume : Resume) :
    (k.suspend tid state resume).dispatches = k.dispatches := rfl

@[simp] theorem dispatches_leave (source : Option Tid) (rsp : UInt64) (call : BlockingCall) (finishes : Bool) :
    (k.leave source rsp call finishes).dispatches = k.dispatches := by
  cases source <;> rfl

@[simp] theorem dispatches_makeCurrent (next : Thread) (rest : List Thread) :
    (k.makeCurrent next rest).dispatches = k.dispatches := rfl

@[simp] theorem dispatches_afterSwitch (rsp : UInt64) : (k.afterSwitch rsp).dispatches = k.dispatches := by
  unfold afterSwitch
  split
  · rfl
  next ptr _ =>
    have written := k.trace_writeState ptr (.cooperative rsp)
    unfold dispatches emit
    rw [written]
    rfl

@[simp] theorem dispatches_continueAt (tid : Tid) (resume : Resume) (rax : UInt64) :
    (k.continueAt tid resume rax).dispatches = k.dispatches := by
  have finished : { (if resume.finishesSwitch then k.afterSwitch rax else k) with cpu := .running tid }.dispatches =
      k.dispatches := by
    split
    · exact dispatches_afterSwitch rax
    · rfl
  unfold continueAt
  cases resume.receivesFrom with
  | some ep => exact (dispatches_emit _).trans (by simpa [Event.dispatchedTid] using finished)
  | none => exact finished

@[simp] theorem dispatches_resume (tid : Tid) (state : SavedThreadState) (rax : UInt64) :
    (k.resume tid state rax).dispatches = k.dispatches ++ [tid] := by
  have emitted : (k.emit (.dispatched tid state)).dispatches = k.dispatches ++ [tid] := dispatches_emit _
  rcases k.resume_cases tid state rax with ⟨_, lost⟩ | ⟨resume, _, found⟩
  · rw [lost]
    exact emitted
  · rw [found, dispatches_continueAt]
    exact emitted

@[simp] theorem dispatches_retire (current : Thread) : (k.retire current).dispatches = k.dispatches := by
  unfold retire
  cases current.processState <;> rfl

@[simp] theorem waiting_emit (event : Event) : (k.emit event).waiting = k.waiting := rfl

@[simp] theorem waiting_resume (tid : Tid) (state : SavedThreadState) (rax : UInt64) :
    (k.resume tid state rax).waiting = k.waiting := congrFun (unswitched_occupants.resume k tid state rax) .runQueue

@[simp] theorem waiting_afterSwitch (rsp : UInt64) : (k.afterSwitch rsp).waiting = k.waiting :=
  congrFun (unswitched_occupants.afterSwitch k rsp) .runQueue

@[simp] theorem waiting_leave (source : Option Tid) (rsp : UInt64) (call : BlockingCall) (finishes : Bool) :
    (k.leave source rsp call finishes).waiting = k.waiting :=
  congrFun (occupants_leave source rsp call finishes) .runQueue

@[simp] theorem waiting_makeCurrent (next : Thread) (rest : List Thread) :
    (k.makeCurrent next rest).waiting = rest.map Thread.tid := rfl

theorem waiting_retire (current : Thread) : k.waiting <+: (k.retire current).waiting := by
  unfold retire
  cases current.processState with
  | none => exact List.prefix_rfl
  | some p =>
    refine ⟨k.occupants (.waitQueue p), ?_⟩
    exact (List.map_append ..).symm

/-- What was dispatched stays so, and the line-up only grows at its end. -/
structure Advances (k after : Kernel) : Prop where
  dispatches : k.dispatches <+: after.dispatches
  lineup : k.lineup <+: after.lineup

theorem Advances.refl (k : Kernel) : k.Advances k := ⟨List.prefix_rfl, List.prefix_rfl⟩

theorem Advances.trans {middle : Kernel} (first : k.Advances middle) (second : middle.Advances after) :
    k.Advances after :=
  ⟨first.dispatches.trans second.dispatches, first.lineup.trans second.lineup⟩

theorem advances_front {next : Thread} {rest : List Thread} (queued : k.scheduler.runQueue = next :: rest)
    (dispatched : after.dispatches = k.dispatches ++ [next.tid]) (left : after.waiting = rest.map Thread.tid) :
    k.Advances after := by
  have front : k.waiting = next.tid :: rest.map Thread.tid := congrArg (List.map Thread.tid) queued
  refine ⟨dispatched ▸ List.prefix_append _ _, ?_⟩
  rw [lineup, lineup, dispatched, left, front, List.append_assoc]
  exact List.prefix_rfl

theorem advances_back (joined : List Tid) (dispatched : after.dispatches = k.dispatches)
    (grown : after.waiting = k.waiting ++ joined) : k.Advances after := by
  refine ⟨dispatched ▸ List.prefix_rfl, ?_⟩
  rw [lineup, lineup, dispatched, grown, ← List.append_assoc]
  exact List.prefix_append _ _

theorem advances_retire (current : Thread) : k.Advances (k.retire current) := by
  obtain ⟨joined, grown⟩ := @waiting_retire k current
  exact advances_back joined (dispatches_retire current) grown.symm

theorem Moves.advances (moves : k.Moves op after) : after.cpu = .halted ∨ k.Advances after := by
  cases moves with
  | same _ tasks =>
    have waiting : after.waiting = k.waiting := congrArg (List.map Thread.tid) tasks.runQueue
    refine .inr (advances_back [] ?_ (waiting.trans (List.append_nil _).symm))
    unfold dispatches
    rcases tasks.trace with same | ⟨p, tid, waited⟩ | ⟨irq, tid, waited⟩
    · rw [same]
    · rw [waited]
      rfl
    · rw [waited]
      rfl
  | halt _ => exact .inl rfl
  | @create _ _ thread _ creates =>
    refine .inr (advances_back [thread.tid] ?_ ?_)
    · rw [dispatches, creates.trace]
      rfl
    · unfold waiting occupants residents
      rw [creates.scheduler]
      exact List.map_append ..
  | @yield current _ => exact .inr (advances_back [current.tid] rfl (List.map_append ..))
  | bootYield _ => exact .inr (advances_back [] rfl (List.append_nil _).symm)
  | @deliver _ current receiver ep msg ptr queue _ _ =>
    exact .inr (advances_back [receiver.tid] rfl (List.map_append ..))
  | blockSender _ _ => exact .inr (advances_back [] rfl (List.append_nil _).symm)
  | drop _ _ => exact .inr (advances_back [] rfl (List.append_nil _).symm)
  | @take _ current sender ep msg queue _ _ =>
    exact .inr (advances_back [sender.tid] rfl (List.map_append ..))
  | blockReceiver _ _ => exact .inr (advances_back [] rfl (List.append_nil _).symm)
  | conjure _ _ => exact .inr (advances_back [] rfl (List.append_nil _).symm)
  | wait _ _ => exact .inr (advances_back [] rfl (List.append_nil _).symm)
  | waitIrq _ _ => exact .inr (advances_back [] rfl (List.append_nil _).symm)
  | @unblock irq thread _ => exact .inr (advances_back [thread.tid] rfl (List.map_append ..))
  | wake _ => exact .inr (advances_back [] rfl (List.append_nil _).symm)
  | idle _ _ => exact .inr (advances_back [] rfl (List.append_nil _).symm)
  | switchCooperative _ queued _ => exact .inr (advances_front queued (by simp) (by simp))
  | switchPreemptive _ queued _ => exact .inr (advances_front queued (by simp) (by simp))
  | refuse _ _ => exact .inl rfl
  | @exitCooperative current _ _ _ _ _ _ queued _ =>
    exact .inr ((advances_retire current).trans (advances_front queued (by simp) (by simp)))
  | @exitPreemptive current _ _ _ _ _ _ queued _ =>
    exact .inr ((advances_retire current).trans (advances_front queued (by simp) (by simp)))
  | exitLast _ => exact .inl rfl
  | @preempt tid current next rest rsp _ _ _ queued =>
    have behind : k.waiting ++ [current.tid] = next.tid :: rest.map Thread.tid := by
      have tids := congrArg (List.map Thread.tid) queued
      rwa [List.map_append] at tids
    refine .inr ⟨by simp, [current.tid], ?_⟩
    rw [lineup, lineup, List.append_assoc, behind]
    simp
  | leaveIdle _ queued => exact .inr (advances_front queued (by simp [dispatches_emit, Event.dispatchedTid]) (by simp))
  | leaveBoot _ queued => exact .inr (advances_front queued (by simp) (by simp))

theorem halted_of_step (halted : k.cpu = .halted) (taken : k.step op = some after) : False := by
  rw [step_stuck (.inl halted)] at taken
  cases taken

theorem advances_of_run {bootCr3 : UInt64} {info : BootInfo} {image : InitImage} {history : List (Kernel × Op)}
    (run : KernelRun bootCr3 info image history k) (going : k.cpu ≠ .halted) :
    ∀ entry ∈ history, entry.1.Advances k := by
  refine run.induct (fun history k => k.cpu ≠ .halted → ∀ entry ∈ history, entry.1.Advances k) ?_ ?_ going
  · intro _ entry member
    cases member
  · intro past state op next earlier soFar taken going entry member
    have grown := ((moves_of_step (orderly_of_run earlier) taken).advances).resolve_left going
    rcases List.mem_append.mp member with old | new
    · exact (soFar (fun halted => halted_of_step halted taken) entry old).trans grown
    · rw [List.mem_singleton.mp new]
      exact grown

/-- A thread that stands at some place of the run queue moves up by one place at every dispatch: nobody overtakes it,
and it is the one dispatched when its turn comes. -/
theorem first_come_first_served {bootCr3 : UInt64} {info : BootInfo} {image : InitImage}
    {history : List (Kernel × Op)} (run : KernelRun bootCr3 info image history k) (going : k.cpu ≠ .halted) :
    ∀ entry ∈ history, ∃ since, k.dispatches = entry.1.dispatches ++ since ∧
      ∀ i tid, entry.1.waiting[i]? = some tid →
        (i < since.length → since[i]? = some tid) ∧ (since.length ≤ i → k.waiting[i - since.length]? = some tid) := by
  intro entry member
  have advances := advances_of_run run going entry member
  obtain ⟨since, dispatched⟩ := advances.dispatches
  refine ⟨since, dispatched.symm, ?_⟩
  intro i tid stands
  -- the queue then is where the dispatches since and the queue now begin
  have ahead : entry.1.waiting <+: since ++ k.waiting := by
    have grown := advances.lineup
    rwa [lineup, lineup, ← dispatched, List.append_assoc, List.prefix_append_right_inj] at grown
  obtain ⟨behind, same⟩ := ahead
  have inside : i < entry.1.waiting.length := (List.getElem?_eq_some_iff.mp stands).1
  have place : (since ++ k.waiting)[i]? = some tid := by
    rw [← same, List.getElem?_append_left inside, stands]
  constructor
  · intro served
    rwa [List.getElem?_append_left served] at place
  · intro queued
    rwa [List.getElem?_append_right queued] at place

/-- The second thread of `init` waits behind the first and runs when that one yields. -/
theorem first_come_first_served_sibling : ∃ history k,
    KernelRun 0x1000 ⟨none, none, 0⟩ ⟨0x400000, 0x2000, 0x10000⟩ history k ∧
    history.map Prod.snd = [.yieldNow, .dispatch 1, .spawnThread 0x500000 0x700000 0x20000, .yieldNow, .dispatch 2] ∧
    k.dispatches = [0, 1] ∧
    ∀ entry ∈ history, ∃ since, k.dispatches = entry.1.dispatches ++ since ∧
      ∀ i tid, entry.1.waiting[i]? = some tid →
        (i < since.length → since[i]? = some tid) ∧ (since.length ≤ i → k.waiting[i - since.length]? = some tid) := by
  obtain ⟨history, k, run, labels, _, facts⟩ := Base.Run.of_check step (fun _ _ => true)
    (booted 0x1000 ⟨none, none, 0⟩ ⟨0x400000, 0x2000, 0x10000⟩)
    [.yieldNow, .dispatch 1, .spawnThread 0x500000 0x700000 0x20000, .yieldNow, .dispatch 2]
    (fun k => k.dispatches == [0, 1] && k.cpu != .halted) (by decide +kernel)
  rw [Bool.and_eq_true, beq_iff_eq, bne_iff_ne] at facts
  exact ⟨history, k, run, labels, facts.1, first_come_first_served run facts.2⟩

end Kernel

end ElseOS
