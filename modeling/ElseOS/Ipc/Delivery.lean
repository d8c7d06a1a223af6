import ElseOS.Ipc.Channel

/-! Whole runs of the kernel, endpoint by endpoint.

Every step carries the channels along, so a run of the kernel projects to a run of the
channel of each endpoint. What a channel keeps and what it loses is then known of
`sys_send` and `sys_recv`. -/

set_option autoImplicit false

namespace ElseOS.Kernel

open Base (Located)
open Base.Rendezvous (Channel Act pending phase completed handed sends run_balanced run_lossless_iff
  run_truthful_iff)

variable {k after : Kernel} {loc : Tid → Option Place}

/-! ## Every step -/

theorem SameTasks.sameIpc (same : k.SameTasks after) : k.SameIpc after := by
  refine ⟨?_, ?_, same.msgBuf, Nat.le_of_eq same.nextTid.symm⟩
  · funext ep
    rw [meeting, same.endpoints, meeting]
  · funext ep
    rcases same.trace with kept | ⟨p, tid, waited⟩ | ⟨irq, tid, waited⟩
    · rw [log, kept, log]
    · rw [log, waited, List.filterMap_cons_none rfl, log]
    · rw [log, waited, List.filterMap_cons_none rfl, log]

theorem carries_same {op : Op} (same : k.SameIpc after) (frames : after.frames = k.frames)
    (leaving : ∀ {tid call}, after.cpu.leaving = some (tid, call) → k.cpu.leaving = some (tid, call))
    (running : ∀ {tid}, after.cpu = .running tid → k.cpu = .running tid) (served : k.Served) (attended : k.Attended)
    (harmless : ∀ ep, k.sendsIntoDrained ep op = false ∧ k.receivesFromDrained ep op = false) :
    k.Carries op after :=
  ⟨same.served frames served, same.attended frames leaving running attended, same.seen harmless⟩

theorem carries_create {op : Op} {thread : Thread} (quiet : k.Quiet op) (creates : k.Creates after thread)
    (orderly : k.Orderly) (placed : k.Placed loc) (served : k.Served) (attended : k.Attended) :
    k.Carries op after := by
  obtain ⟨entryPoint, userStack, frames⟩ := creates.frames
  have same : k.SameIpc after := by
    refine ⟨?_, ?_, creates.msgBuf, by rw [creates.nextTid]; exact Nat.le_succ _⟩
    · funext ep
      rw [meeting, creates.endpoints, meeting]
    · funext ep
      rw [log, creates.trace, List.filterMap_cons_none rfl, log]
  have old : ∀ tid, tid ≠ k.nextTid → after.frames tid = k.frames tid := by
    intro tid different
    rw [frames, Function.update_of_ne different]
  refine ⟨⟨?_, ?_, ?_⟩, ⟨?_, ?_⟩, same.seen quiet.drained⟩
  · intro tid saved resume found ep
    rw [same.waits]
    by_cases new : tid = k.nextTid
    · subst new
      rw [frames, Function.update_self] at found
      cases found
      exact (served.fresh (Nat.le_refl _)).2 ep
    · rw [old tid new] at found
      exact served.frames found ep
  · intro ep entry member
    rw [same.receivers] at member
    rw [same.log]
    exact served.queued member
  · intro tid unused
    rw [creates.nextTid] at unused
    have different : tid ≠ k.nextTid := Nat.ne_of_gt unused
    rw [old tid different]
    obtain ⟨frameless, settled⟩ := served.fresh (Nat.le_of_succ_le unused)
    exact ⟨frameless, fun ep => same.settled.mpr (settled ep)⟩
  · intro tid call left
    rw [creates.cpu] at left
    obtain ⟨used, waits⟩ := attended.leaving left
    exact ⟨Nat.lt_of_lt_of_le used same.nextTid, fun ep => same.waits.mpr (waits ep)⟩
  · intro tid runs
    rw [creates.cpu] at runs
    obtain ⟨current, isCurrent, rfl⟩ := orderly.running runs
    have used : current.tid < k.nextTid := placed.tid_lt_current isCurrent
    rw [old _ (Nat.ne_of_lt used)]
    obtain ⟨frameless, settled⟩ := attended.running runs
    exact ⟨frameless, fun ep => same.settled.mpr (settled ep)⟩

theorem carries_switch {ready : Kernel} {op : Op} {moved : Tid → Option Place} {next : Thread} {rax : UInt64}
    (same : k.SameIpc ready) (served : ready.Served) (isCurrent : ready.occupants .current = [next.tid])
    (located : Located (ready.resume next.tid next.state rax).occupants moved)
    (harmless : ∀ ep, k.sendsIntoDrained ep op = false ∧ k.receivesFromDrained ep op = false) :
    k.Carries op (ready.resume next.tid next.state rax) := by
  rw [unswitched_occupants.resume] at located
  have outside := outside_receivers located .current next.tid (by simp [isCurrent]) (by simp)
  obtain ⟨served, attended, seen⟩ := served.resume next.state rax outside
  refine ⟨served, attended, fun ep => ?_⟩
  rcases seen ep with kept | finished
  · exact .inl ⟨kept.trans (same.channel ep), harmless ep⟩
  · rw [same.channel ep] at finished
    exact .inr ⟨.finish next.tid, finished, (harmless ep).1.symm, (harmless ep).2.symm⟩

theorem served_leave {ready : Kernel} (same : k.SameIpc ready) (frames : ready.frames = k.frames)
    {source : Option Tid} {call : BlockingCall} (dispatching : k.cpu = .dispatching source call) (rsp : UInt64)
    (finishes : Bool) (served : k.Served) (attended : k.Attended) :
    (ready.leave source rsp call finishes).Served := by
  have kept := same.served frames served
  cases source with
  | none => exact kept
  | some tid =>
    have left : k.cpu.leaving = some (tid, call) := by rw [dispatching]; rfl
    obtain ⟨used, waits⟩ := attended.leaving left
    refine kept.suspend (Nat.lt_of_lt_of_le used same.nextTid) ?_
    intro ep
    exact same.waits.mpr (waits ep)

theorem Moves.carries {op : Op} {moved : Tid → Option Place} (moves : k.Moves op after) (orderly : k.Orderly)
    (taken : k.step op = some after) (placed : k.Placed loc) (located : Located after.occupants moved)
    (served : k.Served) (attended : k.Attended) : k.Carries op after := by
  cases moves with
  | same quiet same =>
    exact carries_same same.sameIpc same.frames (by rw [same.cpu]; exact id) (by rw [same.cpu]; exact id) served
      attended quiet.drained
  | halt quiet => exact carries_same ⟨rfl, rfl, rfl, Nat.le_refl _⟩ rfl nofun nofun served attended quiet.drained
  | create quiet creates => exact carries_create quiet creates orderly placed served attended
  | @yield current isCurrent =>
    refine carries_block current.tid .yieldNow ⟨rfl, rfl, rfl,
      Nat.le_refl _⟩ rfl rfl rfl (placed.tid_lt_current isCurrent)
      (orderly.running_current taken isCurrent) served attended ?_
    exact fun _ => ⟨rfl, rfl⟩
  | bootYield none =>
    exact carries_same ⟨rfl, rfl, rfl, Nat.le_refl _⟩ rfl nofun nofun served attended fun _ => ⟨rfl, rfl⟩
  | deliver reached mode =>
    obtain ⟨_, _, _, _, isCurrent, _⟩ := sending_spec reached
    exact carries_deliver reached mode placed located (orderly.running_current taken isCurrent) served attended
  | blockSender reached mode =>
    obtain ⟨_, _, _, _, isCurrent, _⟩ := sending_spec reached
    exact carries_blockSender reached mode (placed.tid_lt_current isCurrent)
      (orderly.running_current taken isCurrent) served attended
  | drop reached mode =>
    obtain ⟨_, _, _, _, isCurrent, _⟩ := sending_spec reached
    exact carries_drop reached mode (placed.tid_lt_current isCurrent) (orderly.running_current taken isCurrent) served
      attended
  | take reached mode =>
    obtain ⟨_, _, _, _, isCurrent, _⟩ := receiving_spec reached
    exact carries_take reached mode (placed.tid_lt_current isCurrent) (orderly.running_current taken isCurrent) served
      attended
  | blockReceiver reached mode =>
    obtain ⟨_, _, _, _, isCurrent, _⟩ := receiving_spec reached
    exact carries_blockReceiver reached mode (placed.tid_lt_current isCurrent)
      (orderly.running_current taken isCurrent) served attended
  | conjure reached mode =>
    obtain ⟨_, _, _, _, isCurrent, _⟩ := receiving_spec reached
    exact carries_conjure reached mode (placed.tid_lt_current isCurrent)
      (orderly.running_current taken isCurrent) served attended
  | @wait handle current p isCurrent inside =>
    refine carries_block current.tid (.sysWait p) ⟨rfl, funext fun ep => log_emit k _ ep, rfl, Nat.le_refl _⟩ rfl rfl
      rfl (placed.tid_lt_current isCurrent) (orderly.running_current taken isCurrent) served attended ?_
    exact fun _ => ⟨rfl, rfl⟩
  | @waitIrq handle current irq isCurrent blocks =>
    refine carries_block current.tid (.sysWaitIrq irq) ⟨rfl, funext fun ep => log_emit k _ ep, rfl, Nat.le_refl _⟩ rfl
      rfl rfl (placed.tid_lt_current isCurrent) (orderly.running_current taken isCurrent) served attended ?_
    exact fun _ => ⟨rfl, rfl⟩
  | unblock waiting =>
    exact carries_same ⟨rfl, rfl, rfl, Nat.le_refl _⟩ rfl id id served attended fun _ => ⟨rfl, rfl⟩
  | wake idle =>
    exact carries_same ⟨rfl, rfl, rfl, Nat.le_refl _⟩ rfl (by rw [idle]; exact id) nofun served attended
      fun _ => ⟨rfl, rfl⟩
  | idle dispatching empty =>
    exact carries_same ⟨rfl, rfl, rfl, Nat.le_refl _⟩ rfl (by rw [dispatching]; exact id) nofun served attended
      fun _ => ⟨rfl, rfl⟩
  | @switchCooperative source call next rest rsp sp dispatching queued cooperative =>
    have moved := sameIpc_makeCurrent k next rest
    refine carries_switch (moved.trans (sameIpc_leave _ source rsp call true))
      (served_leave moved rfl dispatching rsp true served attended) ?_ located fun _ => ⟨rfl, rfl⟩
    rw [occupants_leave, occupants_makeCurrent]
  | @switchPreemptive source call next rest rsp sp dispatching queued preemptive =>
    have moved := sameIpc_makeCurrent k next rest
    have left := moved.trans (sameIpc_leave _ source rsp call false)
    have finished := sameIpc_afterSwitch ((k.makeCurrent next rest).leave source rsp call false) rsp
    refine carries_switch (left.trans finished)
      (finished.served (frames_afterSwitch _ _) (served_leave moved rfl dispatching rsp false served attended)) ?_
      located fun _ => ⟨rfl, rfl⟩
    rw [unswitched_occupants.afterSwitch, occupants_leave, occupants_makeCurrent]
  | refuse dispatching queued =>
    exact carries_same ⟨rfl, rfl, rfl, Nat.le_refl _⟩ rfl nofun nofun served attended fun _ => ⟨rfl, rfl⟩
  | @exitCooperative current next rest rax rsp sp isCurrent queued cooperative =>
    have same := (sameIpc_retire k current).trans (sameIpc_makeCurrent _ next rest)
    exact carries_switch same (same.served (frames_retire current) served) (occupants_makeCurrent _ _) located
      fun _ => ⟨rfl, rfl⟩
  | @exitPreemptive current next rest rax rsp sp isCurrent queued preemptive =>
    have same := ((sameIpc_retire k current).trans (sameIpc_makeCurrent _ next rest)).trans (sameIpc_afterSwitch _ rsp)
    refine carries_switch same (same.served ?_ served) ?_ located fun _ => ⟨rfl, rfl⟩
    · exact (frames_afterSwitch _ _).trans (frames_retire current)
    · rw [unswitched_occupants.afterSwitch, occupants_makeCurrent]
  | @exitLast current rax rsp isCurrent =>
    have same : k.SameIpc (k.retire current).panic :=
      (sameIpc_retire k current).trans ⟨rfl, rfl, rfl, Nat.le_refl _⟩
    exact carries_same same (frames_retire current) nofun nofun served attended fun _ => ⟨rfl, rfl⟩
  | @preempt tid current next rest rsp running isCurrent self queued =>
    have used : tid < k.nextTid := by
      rw [← self]
      exact placed.tid_lt_current isCurrent
    -- an interrupted thread is in code of its own and waits at no endpoint
    have stopped : (k.suspend tid (.preemptive rsp) .interrupted).Served :=
      served.suspend used (attended.running running).2
    have moved := sameIpc_makeCurrent (k.suspend tid (.preemptive rsp) .interrupted) next rest
    exact carries_switch ((sameIpc_suspend k tid _ _).trans moved) (moved.served rfl stopped)
      (occupants_makeCurrent _ _) located fun _ => ⟨rfl, rfl⟩
  | @leaveIdle tid call next rest rsp idle queued =>
    have same : k.SameIpc ((k.makeCurrent next rest).emit (.suspended tid (.preemptive rsp))) :=
      ⟨rfl, funext fun ep => log_emit k _ ep, rfl, Nat.le_refl _⟩
    exact carries_switch same (same.served rfl served) (occupants_makeCurrent _ _) located fun _ => ⟨rfl, rfl⟩
  | @leaveBoot next rest rsp boot queued =>
    have same := sameIpc_makeCurrent k next rest
    exact carries_switch same (same.served rfl served) (occupants_makeCurrent _ _) located fun _ => ⟨rfl, rfl⟩

/-! ## Every run -/

section

variable (bootCr3 : UInt64) (info : BootInfo) (image : InitImage)

theorem settled_booted (ep : EndpointRef) (tid : Tid) : (booted bootCr3 info image).Settled ep tid := ⟨nofun, rfl⟩

theorem frames_booted : (booted bootCr3 info image).frames =
    Function.update (fun _ : Tid => none) 0
      (some (Thread.initialState image.stackBase, Resume.entry image.entryPoint userStackTop)) := rfl

theorem served_booted : (booted bootCr3 info image).Served where
  frames := by
    intro tid saved resume found ep
    rw [frames_booted] at found
    by_cases first : tid = 0
    · subst first
      rw [Function.update_self] at found
      cases found
      exact settled_booted bootCr3 info image ep 0
    · rw [Function.update_of_ne first] at found
      cases found
  queued := nofun
  fresh := by
    intro tid unused
    have used : tid ≠ 0 := Nat.ne_of_gt unused
    rw [frames_booted, Function.update_of_ne used]
    exact ⟨rfl, fun ep => settled_booted bootCr3 info image ep tid⟩

theorem attended_booted : (booted bootCr3 info image).Attended := ⟨nofun, nofun⟩

end

section Runs

variable {bootCr3 : UInt64} {info : BootInfo} {image : InitImage} {history : List (Kernel × Op)}

/-- One more step of a run carries the channels along. -/
theorem carries_of_run {op : Op} (run : KernelRun bootCr3 info image history k) (taken : k.step op = some after)
    (served : k.Served) (attended : k.Attended) : k.Carries op after := by
  obtain ⟨_, placed, _⟩ := placed_of_run run
  obtain ⟨_, reached, _⟩ := placed_of_run (run.next taken)
  have orderly := orderly_of_run run
  exact (moves_of_step orderly taken).carries orderly taken placed reached.located served attended

theorem served_of_run (run : KernelRun bootCr3 info image history k) : k.Served ∧ k.Attended := by
  refine run.induct (fun _ state => state.Served ∧ state.Attended) ?_ ?_
  · exact ⟨served_booted bootCr3 info image, attended_booted bootCr3 info image⟩
  · rintro past state op after earlier ⟨served, attended⟩ taken
    have carries := carries_of_run earlier taken served attended
    exact ⟨carries.served, carries.attended⟩

inductive Fault where
  | drop
  | conjure

def Faulty (k : Kernel) (ep : EndpointRef) (op : Op) : Fault → Prop
  | .drop => k.sendsIntoDrained ep op = true
  | .conjure => k.receivesFromDrained ep op = true

def FaultyAct (act : Base.Rendezvous.Act Tid Message) : Fault → Prop
  | .drop => act.dropped?.isSome = true
  | .conjure => act.conjures = true

/-- Every run is seen at every endpoint as a run of a channel, which drops and conjures messages
where the kernel's steps do. -/
theorem channel_of_run (run : KernelRun bootCr3 info image history k) (ep : EndpointRef) :
    ∃ acts, Base.Run Channel.step Channel.new acts (k.channel ep) ∧
      ∀ kind, (∃ entry ∈ acts, FaultyAct entry.2 kind) ↔ ∃ entry ∈ history, entry.1.Faulty ep entry.2 kind := by
  refine Base.Run.simulate Channel.step (fun k => k.channel ep) (fun k op => k.Faulty ep op) FaultyAct ?_ run
  intro past state op after earlier taken
  obtain ⟨served, attended⟩ := served_of_run earlier
  have carries := carries_of_run earlier taken served attended
  rcases carries.seen ep with ⟨same, noDrop, noConjure⟩ | ⟨act, acted, drops, conjures⟩
  · refine .inl ⟨same, fun kind => ?_⟩
    cases kind with
    | drop => simp [Faulty, noDrop]
    | conjure => simp [Faulty, noConjure]
  · refine .inr ⟨act, acted, fun kind => ?_⟩
    cases kind with
    | drop => simp only [Faulty, FaultyAct, drops]
    | conjure => simp only [Faulty, FaultyAct, conjures]

/-- Messages whose send completed are those handed to a receiver, and the sends still blocked are
those in the queue, exactly when no send met a drained receiver queue. -/
theorem delivered_iff (run : KernelRun bootCr3 info image history k) (ep : EndpointRef) :
    (completed (k.log ep) = handed (k.log ep) ∧ sends (k.log ep) = completed (k.log ep) + k.senders ep) ↔
      ∀ entry ∈ history, entry.1.sendsIntoDrained ep entry.2 = false := by
  obtain ⟨acts, projected, faults⟩ := channel_of_run run ep
  have balanced : sends (k.log ep) = completed (k.log ep) + k.senders ep := run_balanced projected
  have lossless : completed (k.log ep) = handed (k.log ep) ↔ ∀ entry ∈ acts, entry.2.dropped? = none :=
    run_lossless_iff projected
  rw [and_iff_left balanced, lossless]
  simpa [FaultyAct, Faulty] using not_congr (faults .drop)

/-- A receiver blocks, is handed a first message and leaves its drained queue behind; the second
send returns with its message gone. -/
theorem send_lost : ∃ history k, KernelRun 0x1000 ⟨none, none, 0⟩ ⟨0x400000, 0x2000, 0x10000⟩ history k ∧
    history.map Prod.snd = [.yieldNow, .dispatch 1, .sysEndpointCreate, .spawnThread 0x400100 0x7000 0x20000,
      .sysRecv 0, .dispatch 0x11e00, .sysSend 0 ⟨1, 0, 0, 0, 0, 0⟩, .sysSend 0 ⟨2, 0, 0, 0, 0, 0⟩] ∧
    ¬ (completed (k.log 0) = handed (k.log 0) ∧ sends (k.log 0) = completed (k.log 0) + k.senders 0) := by
  obtain ⟨history, k, run, labels, _, lost⟩ := Base.Run.of_check step (fun _ _ => true)
    (booted 0x1000 ⟨none, none, 0⟩ ⟨0x400000, 0x2000, 0x10000⟩)
    [.yieldNow, .dispatch 1, .sysEndpointCreate, .spawnThread 0x400100 0x7000 0x20000, .sysRecv 0, .dispatch 0x11e00,
      .sysSend 0 ⟨1, 0, 0, 0, 0, 0⟩, .sysSend 0 ⟨2, 0, 0, 0, 0, 0⟩]
    (fun k => decide (completed (k.log 0) ≠ handed (k.log 0))) (by decide +kernel)
  exact ⟨history, k, run, labels, fun ⟨delivered, _⟩ => of_decide_eq_true lost delivered⟩

/-- One receive, one send. -/
theorem delivered_once : ∃ history k, KernelRun 0x1000 ⟨none, none, 0⟩ ⟨0x400000, 0x2000, 0x10000⟩ history k ∧
    history.map Prod.snd = [.yieldNow, .dispatch 1, .sysEndpointCreate, .spawnThread 0x400100 0x7000 0x20000,
      .sysRecv 0, .dispatch 0x11e00, .sysSend 0 ⟨1, 0, 0, 0, 0, 0⟩] ∧
    completed (k.log 0) = handed (k.log 0) ∧ sends (k.log 0) = completed (k.log 0) + k.senders 0 := by
  obtain ⟨history, k, run, labels, harmless, _⟩ := Base.Run.of_check step (fun k op => !k.sendsIntoDrained 0 op)
    (booted 0x1000 ⟨none, none, 0⟩ ⟨0x400000, 0x2000, 0x10000⟩)
    [.yieldNow, .dispatch 1, .sysEndpointCreate, .spawnThread 0x400100 0x7000 0x20000, .sysRecv 0, .dispatch 0x11e00,
      .sysSend 0 ⟨1, 0, 0, 0, 0, 0⟩]
    (fun _ => true) (by decide +kernel)
  exact ⟨history, k, run, labels, (delivered_iff run 0).mpr fun entry member => by simpa using harmless entry member⟩

/-- Every receive returned the message handed to it, exactly when none met a drained sender queue. -/
theorem truthful_iff (run : KernelRun bootCr3 info image history k) (ep : EndpointRef) :
    (k.channel ep).Truthful ↔ ∀ entry ∈ history, entry.1.receivesFromDrained ep entry.2 = false := by
  obtain ⟨acts, projected, faults⟩ := channel_of_run run ep
  rw [run_truthful_iff projected]
  simpa [FaultyAct, Faulty] using not_congr (faults .conjure)

/-- A sender blocks, its message is taken and its drained queue stays behind; the second receive
returns a message nobody sent. -/
theorem receive_conjured : ∃ history k, KernelRun 0x1000 ⟨none, none, 0⟩ ⟨0x400000, 0x2000, 0x10000⟩ history k ∧
    history.map Prod.snd = [.yieldNow, .dispatch 1, .sysEndpointCreate, .spawnThread 0x400100 0x7000 0x20000,
      .sysSend 0 ⟨1, 0, 0, 0, 0, 0⟩, .dispatch 0x11e00, .sysRecv 0, .sysRecv 0] ∧ ¬ (k.channel 0).Truthful := by
  obtain ⟨history, k, run, labels, _, wrong⟩ := Base.Run.of_check step (fun _ _ => true)
    (booted 0x1000 ⟨none, none, 0⟩ ⟨0x400000, 0x2000, 0x10000⟩)
    [.yieldNow, .dispatch 1, .sysEndpointCreate, .spawnThread 0x400100 0x7000 0x20000, .sysSend 0 ⟨1, 0, 0, 0, 0, 0⟩,
      .dispatch 0x11e00, .sysRecv 0, .sysRecv 0]
    (fun k => decide (phase 1 (k.log 0) = none)) (by decide +kernel)
  exact ⟨history, k, run, labels, fun truthful => truthful.returns 1 (of_decide_eq_true wrong)⟩

/-- One send, one receive. -/
theorem truthful_once : ∃ history k, KernelRun 0x1000 ⟨none, none, 0⟩ ⟨0x400000, 0x2000, 0x10000⟩ history k ∧
    history.map Prod.snd = [.yieldNow, .dispatch 1, .sysEndpointCreate, .spawnThread 0x400100 0x7000 0x20000,
      .sysSend 0 ⟨1, 0, 0, 0, 0, 0⟩, .dispatch 0x11e00, .sysRecv 0] ∧ (k.channel 0).Truthful := by
  obtain ⟨history, k, run, labels, harmless, _⟩ := Base.Run.of_check step (fun k op => !k.receivesFromDrained 0 op)
    (booted 0x1000 ⟨none, none, 0⟩ ⟨0x400000, 0x2000, 0x10000⟩)
    [.yieldNow, .dispatch 1, .sysEndpointCreate, .spawnThread 0x400100 0x7000 0x20000, .sysSend 0 ⟨1, 0, 0, 0, 0, 0⟩,
      .dispatch 0x11e00, .sysRecv 0]
    (fun _ => true) (by decide +kernel)
  exact ⟨history, k, run, labels, (truthful_iff run 0).mpr fun entry member => by simpa using harmless entry member⟩

end Runs

end ElseOS.Kernel
