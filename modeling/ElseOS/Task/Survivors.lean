import ElseOS.Task.Resumption
import ElseOS.Task.Termination

/-! Who is left when a thread exits.

The flag of a process speaks about all its threads, while `exit_current_thread` sets it for
one; and that function stops the system when the run queue is empty, while threads may be
blocked elsewhere. -/

set_option autoImplicit false

namespace ElseOS.Kernel

variable {k after : Kernel} {op : Op} {p : ProcessRef}

/-! ## The flag and the threads of a process -/

def Living (k : Kernel) (p : ProcessRef) : Prop := ∃ who, Listed k.roster who ∧ who.processState = some p

def LivesElsewhere (k : Kernel) (place : Place) (p : ProcessRef) : Prop :=
  ∃ other, other ≠ place ∧ ∃ who ∈ k.roster other, who.processState = some p

/-- The flag is set exactly when no thread of the process is left. -/
def Reported (k : Kernel) : Prop := ∀ p < k.nextProcess, (k.processes p).terminated = true ↔ ¬ k.Living p

/-- A thread that exits is the last of its process; a thread that is dropped from an IRQ slot is not. -/
structure DepartsLast (k : Kernel) (op : Op) : Prop where
  exit : ∀ {rax rsp current p}, op = .exitCurrentThread rax rsp → k.scheduler.current = some current →
    current.processState = some p → ¬ k.LivesElsewhere .current p
  dropped : ∀ {irq waiter p}, k.awaiting op = some irq → k.scheduler.irqWaiters irq = some waiter →
    waiter.processState = some p → k.LivesElsewhere (.irq irq) p

theorem LivesElsewhere.living {place : Place} (elsewhere : k.LivesElsewhere place p) : k.Living p := by
  obtain ⟨other, _, who, member, belongs⟩ := elsewhere
  exact ⟨who, ⟨other, member⟩, belongs⟩

theorem livesElsewhere_iff {place : Place} (none : ∀ who ∈ k.roster place, who.processState ≠ some p) :
    k.LivesElsewhere place p ↔ k.Living p := by
  constructor
  · exact LivesElsewhere.living
  · rintro ⟨who, ⟨other, member⟩, belongs⟩
    by_cases same : other = place
    · subst same
      exact absurd belongs (none who member)
    · exact ⟨other, same, who, member, belongs⟩

theorem living_iff_of_listed (same : ∀ who, Listed after.roster who ↔ Listed k.roster who) :
    after.Living p ↔ k.Living p := by
  simp only [Living, same]

theorem living_iff_of_cleared {place : Place}
    (rest : ∀ who, Listed after.roster who ↔ ∃ other, other ≠ place ∧ who ∈ k.roster other) :
    after.Living p ↔ k.LivesElsewhere place p := by
  constructor
  · rintro ⟨who, listed, belongs⟩
    obtain ⟨other, different, member⟩ := (rest who).mp listed
    exact ⟨other, different, who, member, belongs⟩
  · rintro ⟨other, different, who, member, belongs⟩
    exact ⟨who, (rest who).mpr ⟨other, different, member⟩, belongs⟩

theorem departsLast_of_stays (stays : ∀ rax rsp, op ≠ .exitCurrentThread rax rsp) (awaits : k.awaiting op = none) :
    k.DepartsLast op where
  exit exits := absurd exits (stays _ _)
  dropped blocks := by
    rw [awaits] at blocks
    cases blocks

theorem terminated_of_registry {statuses : ProcessRef → ProcessStatus} {bound : Nat}
    (registered : k.registry = (statuses, bound)) (p : ProcessRef) :
    (k.processes p).terminated = (statuses p).terminated :=
  congrArg ProcessStatus.terminated (congrFun (congrArg Prod.fst registered) p)

theorem terminated_update {statuses : ProcessRef → ProcessStatus} {q : ProcessRef} {changed : ProcessStatus}
    {bound : Nat} (registered : k.registry = (Function.update statuses q changed, bound)) :
    (k.processes q).terminated = changed.terminated ∧
      ∀ p, p ≠ q → (k.processes p).terminated = (statuses p).terminated := by
  constructor
  · rw [terminated_of_registry registered, Function.update_self]
  · intro p other
    rw [terminated_of_registry registered, Function.update_of_ne other]

theorem flags_of_step (taken : k.step op = some after) (stays : ∀ rax rsp, op ≠ .exitCurrentThread rax rsp)
    (plain : ∀ epHandle entryPoint cr3 stackBase, op ≠ .spawnChild epHandle entryPoint cr3 stackBase) :
    after.nextProcess = k.nextProcess ∧ ∀ p, (after.processes p).terminated = (k.processes p).terminated := by
  have observed (same : after.registry = k.registry) :
      after.nextProcess = k.nextProcess ∧ ∀ p, (after.processes p).terminated = (k.processes p).terminated :=
    ⟨congrArg Prod.snd same, terminated_of_registry same⟩
  by_cases waits : ∃ handle, op = .sysWait handle
  · obtain ⟨handle, rfl⟩ := waits
    obtain ⟨_, rfl⟩ := of_whenRunning taken
    rcases k.registry_sysWait handle with ⟨_, same⟩ | ⟨q, current, joined, _, moved⟩
    · exact observed same
    · -- a wait rewrites the status of its process with the flag it found
      obtain ⟨here, elsewhere⟩ := terminated_update moved
      refine ⟨congrArg Prod.snd moved, fun p => ?_⟩
      by_cases same : p = q
      · subst same
        rw [here, (joins_eq_some.mp joined).2]
      · exact elsewhere p same
  · exact observed (registry_of_step taken stays plain fun handle same => waits ⟨handle, same⟩)

theorem Reported.congr (reported : k.Reported) (bound : after.nextProcess = k.nextProcess)
    (flags : ∀ p, (after.processes p).terminated = (k.processes p).terminated)
    (living : ∀ p, after.Living p ↔ k.Living p) : after.Reported := by
  intro p inside
  rw [bound] at inside
  rw [flags, living]
  exact reported p inside

theorem Reported.spawn (reported : k.Reported) (orderly : k.Orderly) {epHandle : UInt64}
    (entryPoint cr3 stackBase : UInt64)
    {found : Thread × CSpaceRef × Option Capability} (calls : k.lookup epHandle = some found) :
    (k.spawnChild epHandle entryPoint cr3 stackBase).1.Reported := by
  obtain ⟨thread, creates, first, _⟩ := creates_spawnChild orderly entryPoint cr3 stackBase calls
  have registered := registry_spawnChild entryPoint cr3 stackBase calls
  generalize (k.spawnChild epHandle entryPoint cr3 stackBase).1 = after at creates registered ⊢
  have bound : after.nextProcess = k.nextProcess + 1 := congrArg Prod.snd registered
  obtain ⟨unfinished, same⟩ := terminated_update registered
  intro p inside
  by_cases new : p = k.nextProcess
  · subst new
    have living : after.Living k.nextProcess :=
      ⟨thread.identity, (listed_create creates).mpr (.inr rfl), first⟩
    simp [unfinished, living]
  · have living : after.Living p ↔ k.Living p := by
      constructor
      · rintro ⟨who, listed, belongs⟩
        rcases (listed_create creates).mp listed with old | rfl
        · exact ⟨who, old, belongs⟩
        · exact absurd (Option.some.inj (belongs.symm.trans first)) new
      · rintro ⟨who, listed, belongs⟩
        exact ⟨who, (listed_create creates).mpr (.inl listed), belongs⟩
    rw [same p new, living]
    rw [bound] at inside
    exact reported p (lt_of_le_of_ne (Nat.lt_succ_iff.mp inside) new)

theorem living_create {thread : Thread} (creates : k.Creates after thread) (bound : after.nextProcess = k.nextProcess) :
    after.Living p ↔ k.Living p := by
  have known : thread.processState = some p → k.Living p := by
    intro belongs
    cases creates.lineage with
    | kernel _ _ none =>
      rw [none] at belongs
      cases belongs
    | child _ _ _ _ grown =>
      -- a first thread comes with a process, and here none was added
      rw [bound] at grown
      exact absurd grown (Nat.ne_of_lt (Nat.lt_succ_self _))
    | @sibling current _ _ _ isCurrent _ _ owner _ _ same =>
      rw [same] at belongs
      cases belongs
      exact ⟨current.identity, ⟨.current, by simp [roster_current isCurrent]⟩, owner⟩
  constructor
  · rintro ⟨who, listed, belongs⟩
    rcases (listed_create creates).mp listed with old | rfl
    · exact ⟨who, old, belongs⟩
    · exact known belongs
  · rintro ⟨who, listed, belongs⟩
    exact ⟨who, (listed_create creates).mpr (.inl listed), belongs⟩

/-- The flag is right after an exit exactly when the thread was the last of its process. -/
theorem Reported.exit_iff (reported : k.Reported) (populated : k.Populated) {current : Thread} {rax rsp : UInt64}
    (isCurrent : k.scheduler.current = some current) :
    (k.exitCurrentThread rax rsp).Reported ↔ k.DepartsLast (.exitCurrentThread rax rsp) := by
  have registered := registry_exit isCurrent rax rsp
  have rest : ∀ p, (k.exitCurrentThread rax rsp).Living p ↔ k.LivesElsewhere .current p := by
    intro p
    cases turnover_exit isCurrent rax rsp with
    | kept stays => exact absurd rfl (stays rax rsp)
    | created stays => exact absurd rfl (stays rax rsp)
    | exited _ _ rest => exact living_iff_of_cleared rest
    | replaced blocks => cases blocks
  have others (p : ProcessRef) (foreign : current.processState ≠ some p) :
      k.LivesElsewhere .current p ↔ k.Living p := by
    apply livesElsewhere_iff
    intro who member
    rw [roster_current isCurrent, List.mem_singleton] at member
    subst member
    exact foreign
  generalize k.exitCurrentThread rax rsp = after at registered rest ⊢
  cases process : current.processState with
  | none =>
    -- a kernel thread belongs to no process, so no flag and no population changes
    rw [process] at registered
    have bound : after.nextProcess = k.nextProcess := congrArg Prod.snd registered
    constructor
    · intro _
      refine ⟨?_, by simp [awaiting]⟩
      intro _ _ thread p _ same belongs
      rw [isCurrent] at same
      cases same
      rw [process] at belongs
      cases belongs
    · intro _
      apply reported.congr bound
      · exact terminated_of_registry registered
      · exact fun p => (rest p).trans (others p (by simp [process]))
  | some q =>
    rw [process] at registered
    have bound : after.nextProcess = k.nextProcess := congrArg Prod.snd registered
    obtain ⟨ended, same⟩ := terminated_update registered
    have inside : q < k.nextProcess := by
      rcases (populated.current isCurrent).process with ⟨_, none⟩ | ⟨_, _, _, below, same⟩
      · rw [process] at none
        cases none
      · rw [process] at same
        cases same
        exact below
    constructor
    · intro reportedAfter
      refine ⟨?_, by simp [awaiting]⟩
      intro _ _ thread p _ same belongs
      rw [isCurrent] at same
      cases same
      rw [process] at belongs
      cases belongs
      rw [← rest]
      exact (reportedAfter q (bound ▸ inside)).mp ended
    · intro last p below
      by_cases here : p = q
      · subst here
        rw [rest]
        exact iff_of_true ended (last.exit rfl isCurrent process)
      · rw [same p here, rest, others p (by simpa [process] using Ne.symm here)]
        exact reported p (bound ▸ below)

/-- A dropped waiter leaves the flag right exactly when its process has another thread. -/
theorem Reported.replaced_iff (reported : k.Reported) (populated : k.Populated) {irq : UInt8}
    (stays : ∀ rax rsp, op ≠ .exitCurrentThread rax rsp) (blocks : k.awaiting op = some irq)
    (rest : ∀ who, Listed after.roster who ↔ ∃ place, place ≠ .irq irq ∧ who ∈ k.roster place)
    (bound : after.nextProcess = k.nextProcess)
    (flags : ∀ p, (after.processes p).terminated = (k.processes p).terminated) :
    after.Reported ↔ k.DepartsLast op := by
  have slot {waiter : Thread} (waiting : k.scheduler.irqWaiters irq = some waiter) :
      waiter.identity ∈ k.roster (.irq irq) := by simp [roster, seen, residents, waiting]
  constructor
  · intro reportedAfter
    refine ⟨fun exits => absurd exits (stays _ _), ?_⟩
    intro other waiter p blocksOther waiting belongs
    rw [blocks] at blocksOther
    cases blocksOther
    -- the waiter was living, so the flag is clear and someone else must be left
    have living : k.Living p := ⟨waiter.identity, ⟨.irq irq, slot waiting⟩, belongs⟩
    have inside : p < k.nextProcess := by
      rcases (populated (.irq irq) _ (slot waiting)).process with ⟨_, none⟩ | ⟨_, _, _, below, same⟩
      · exact absurd (belongs.symm.trans none) (by simp)
      · cases Option.some.inj (belongs.symm.trans same)
        exact below
    have unfinished : (after.processes p).terminated ≠ true := by
      rw [flags]
      exact fun ended => (reported p inside).mp ended living
    rw [← living_iff_of_cleared rest]
    by_contra gone
    exact unfinished ((reportedAfter p (bound ▸ inside)).mpr gone)
  · -- conversely the process of the dropped waiter lives on elsewhere
    intro last
    refine reported.congr bound flags fun p => ?_
    rw [living_iff_of_cleared rest]
    refine ⟨LivesElsewhere.living, ?_⟩
    rintro ⟨who, ⟨place, member⟩, belongs⟩
    by_cases here : place = .irq irq
    · subst here
      cases waiting : k.scheduler.irqWaiters irq with
      | none => simp [roster, seen, residents, waiting] at member
      | some waiter =>
        obtain rfl : who = waiter.identity := by simpa [roster, seen, residents, waiting] using member
        exact last.dropped blocks waiting belongs
    · exact ⟨place, here, who, member, belongs⟩

theorem Reported.step_iff (reported : k.Reported) (orderly : k.Orderly) (populated : k.Populated)
    (taken : k.step op = some after) : after.Reported ↔ k.DepartsLast op := by
  by_cases spawns : ∃ epHandle entryPoint cr3 stackBase, op = .spawnChild epHandle entryPoint cr3 stackBase
  · obtain ⟨epHandle, entryPoint, cr3, stackBase, rfl⟩ := spawns
    obtain ⟨running, rfl⟩ := of_whenRunning taken
    obtain ⟨_, _, _, calls⟩ := populated.lookup_running orderly running epHandle
    exact iff_of_true (reported.spawn orderly entryPoint cr3 stackBase calls) (departsLast_of_stays (by simp) rfl)
  · have plain : ∀ epHandle entryPoint cr3 stackBase, op ≠ .spawnChild epHandle entryPoint cr3 stackBase :=
      fun epHandle entryPoint cr3 stackBase same => spawns ⟨epHandle, entryPoint, cr3, stackBase, same⟩
    cases turnover_of_step orderly taken with
    | kept stays awaits same =>
      obtain ⟨bound, flags⟩ := flags_of_step taken stays plain
      exact iff_of_true (reported.congr bound flags fun p => living_iff_of_listed same)
        (departsLast_of_stays stays awaits)
    | created stays awaits creates =>
      obtain ⟨bound, flags⟩ := flags_of_step taken stays plain
      exact iff_of_true (reported.congr bound flags fun p => living_create creates bound)
        (departsLast_of_stays stays awaits)
    | exited exits isCurrent _ =>
      subst exits
      obtain ⟨_, rfl⟩ := of_whenRunning taken
      exact reported.exit_iff populated isCurrent
    | replaced blocks rest =>
      have stays : ∀ rax rsp, op ≠ .exitCurrentThread rax rsp := by
        rintro rax rsp rfl
        cases blocks
      obtain ⟨bound, flags⟩ := flags_of_step taken stays plain
      exact reported.replaced_iff populated stays blocks rest bound flags

/-- The step with which a `sys_wait` on the process returns 0: at once, or by leaving its wait queue. -/
inductive WaitReturns (k : Kernel) (op : Op) (after : Kernel) (p : ProcessRef) : Prop where
  | immediate {handle : UInt64} : op = .sysWait handle → k.waitedFor op = some p →
      (k.sysWait handle).2 = .done 0 → WaitReturns k op after p
  | released {tid : Tid} : tid ∈ k.occupants (.waitQueue p) → tid ∉ after.occupants (.waitQueue p) →
      WaitReturns k op after p

theorem waitedFor_eq_some {handle : UInt64} (waits : k.waitedFor (.sysWait handle) = some p) :
    ∃ current cs rights, k.lookup handle = some (current, cs, some (.process p rights)) ∧
      rights.contains .WAIT = true := by
  unfold waitedFor at waits
  dsimp only at waits
  split at waits
  next current cs q rights found =>
    split at waits
    next allowed =>
      cases waits
      exact ⟨current, cs, rights, found, allowed⟩
    next => cases waits
  next => cases waits

theorem terminated_of_returns (orderly : k.Orderly) (taken : k.step op = some after)
    (returns : k.WaitReturns op after p) : (after.processes p).terminated = true := by
  cases returns with
  | @immediate handle waits about done =>
    subst waits
    obtain ⟨_, rfl⟩ := of_whenRunning taken
    obtain ⟨current, cs, rights, found, allowed⟩ := waitedFor_eq_some about
    cases ended : (k.processes p).terminated with
    | true => rw [(flags_of_step taken (by simp) (by simp)).2, ended]
    | false =>
      -- a wait for a process that has not ended blocks instead
      have unfinished : ((k.emit (.waited p current.tid)).processes p).terminated = false := ended
      simp [sysWait, found, allowed, unfinished] at done
  | @released tid waited gone =>
    have moves := statusMoves_of_step taken
    generalize observed : after.registry = registered at moves
    have seen : after.status p = registered.1 p := congrFun (congrArg Prod.fst observed) p
    change tid ∈ (k.status p).waiting at waited
    change tid ∉ (after.status p).waiting at gone
    change (after.status p).terminated = true
    rw [seen] at gone ⊢
    -- of all steps only an exit takes threads off a wait queue
    cases moves with
    | unchanged => exact absurd waited gone
    | @wait q =>
      by_cases here : p = q
      · subst here
        simp [waited] at gone
      · exact absurd waited (by simpa [Function.update_of_ne here] using gone)
    | @exit q =>
      by_cases here : p = q
      · simp [here]
      · exact absurd waited (by simpa [Function.update_of_ne here] using gone)
    | spawn =>
      by_cases here : p = k.nextProcess
      · -- nobody waits for a process before it exists
        have empty := orderly.freshProcesses p (Nat.le_of_eq here.symm)
        change tid ∈ k.occupants (.waitQueue p) at waited
        rw [empty] at waited
        cases waited
      · exact absurd waited (by simpa [Function.update_of_ne here] using gone)

structure WellReported (history : List (Kernel × Op)) (k : Kernel) : Prop where
  visited : ∀ entry ∈ history, entry.1.Reported
  last : k.Reported
  returns : ∀ entry ∈ history, ∀ after p, entry.1.step entry.2 = some after →
    entry.1.WaitReturns entry.2 after p → ¬ after.Living p

variable {bootCr3 : UInt64} {info : BootInfo} {image : InitImage} {history : List (Kernel × Op)}

theorem reported_booted (bootCr3 : UInt64) (info : BootInfo) (image : InitImage) :
    (booted bootCr3 info image).Reported := by
  intro p inside
  obtain rfl : p = 0 := Nat.lt_one_iff.mp inside
  have living : (booted bootCr3 info image).Living 0 := ⟨_, ⟨.runQueue, List.mem_singleton.mpr rfl⟩, rfl⟩
  exact iff_of_false Bool.false_ne_true (not_not.mpr living)

theorem wellReported_append_iff (run : KernelRun bootCr3 info image history k) (taken : k.step op = some after) :
    WellReported (history ++ [(k, op)]) after ↔ WellReported history k ∧ after.Reported := by
  constructor
  · intro truthful
    refine ⟨⟨?_, truthful.visited (k, op) (by simp), ?_⟩, truthful.last⟩
    · exact fun entry member => truthful.visited entry (List.mem_append_left _ member)
    · exact fun entry member => truthful.returns entry (List.mem_append_left _ member)
  · rintro ⟨truthful, reported⟩
    constructor
    · intro entry member
      rcases List.mem_append.mp member with old | new
      · exact truthful.visited entry old
      · rw [List.mem_singleton.mp new]
        exact truthful.last
    · exact reported
    · intro entry member other p moved returns
      rcases List.mem_append.mp member with old | new
      · exact truthful.returns entry old other p moved returns
      · cases List.mem_singleton.mp new
        rw [taken] at moved
        cases moved
        have ended := terminated_of_returns (orderly_of_run run) taken returns
        -- a process that does not exist yet has not ended
        have inside : p < after.nextProcess := by
          by_contra outside
          have fresh := (queued_of_run (run.next taken) p).fresh (Nat.not_lt.mp outside)
          exact Bool.false_ne_true (fresh.symm.trans ended)
        exact (reported p inside).mp ended

/-- The flags are right throughout a run exactly when every thread that exits is the last of its
process, and no thread that an interrupt slot drops is. -/
theorem wellReported_iff (run : KernelRun bootCr3 info image history k) :
    WellReported history k ↔ ∀ entry ∈ history, entry.1.DepartsLast entry.2 := by
  refine run.induct (fun history k => WellReported history k ↔ ∀ entry ∈ history, entry.1.DepartsLast entry.2) ?_ ?_
  · exact iff_of_true ⟨by simp, reported_booted bootCr3 info image, by simp⟩ (by simp)
  · intro past state label after earlier ih taken
    rw [wellReported_append_iff earlier taken, ih]
    simp only [List.forall_mem_append, List.forall_mem_singleton]
    constructor
    · rintro ⟨guarded, reported⟩
      exact ⟨guarded,
        ((ih.mpr guarded).last.step_iff (orderly_of_run earlier) (populated_of_run earlier) taken).mp reported⟩
    · rintro ⟨guarded, last⟩
      exact ⟨guarded,
        ((ih.mpr guarded).last.step_iff (orderly_of_run earlier) (populated_of_run earlier) taken).mpr last⟩

/-- One thread of `init` exits while another runs on, and the flag of the process is set. -/
theorem terminated_with_survivor : ∃ history k,
    KernelRun 0x1000 ⟨none, none, 0⟩ ⟨0x400000, 0x2000, 0x10000⟩ history k ∧
    history.map Prod.snd = [.yieldNow, .dispatch 1, .spawnThread 0x400100 0x7000 0x20000, .exitCurrentThread 0 0] ∧
    (k.processes 0).terminated = true ∧ k.Living 0 ∧ ¬ WellReported history k := by
  obtain ⟨history, k, run, labels, _, checked⟩ := Base.Run.of_check step (fun _ _ => true)
    (booted 0x1000 ⟨none, none, 0⟩ ⟨0x400000, 0x2000, 0x10000⟩)
    [.yieldNow, .dispatch 1, .spawnThread 0x400100 0x7000 0x20000, .exitCurrentThread 0 0]
    (fun k => (k.processes 0).terminated && decide (0 < k.nextProcess) &&
      (k.roster .current).any fun who => who.processState == some 0) (by decide +kernel)
  simp only [Bool.and_eq_true, decide_eq_true_eq, List.any_eq_true, beq_iff_eq] at checked
  obtain ⟨⟨ended, inside⟩, who, listed, belongs⟩ := checked
  have living : k.Living 0 := ⟨who, ⟨.current, listed⟩, belongs⟩
  exact ⟨history, k, run, labels, ended, living, fun wellReported => (wellReported.last 0 inside).mp ended living⟩

theorem departsLast_of_single (run : KernelRun bootCr3 info image history k) (single : k.nextTid ≤ 1)
    (awaits : k.awaiting op = none) : k.DepartsLast op where
  exit := by
    rintro _ _ current p _ isCurrent _ ⟨place, elsewhere, who, member, _⟩
    obtain ⟨loc, placed, _⟩ := placed_of_run run
    obtain ⟨thread, stands, rfl⟩ := List.mem_map.mp member
    have other : thread.tid ∈ k.occupants place := List.mem_map_of_mem stands
    have own : current.tid ∈ k.occupants .current := by simp [occupants_current isCurrent]
    have first {tid : Tid} {place : Place} (stands : tid ∈ k.occupants place) : tid = 0 :=
      Nat.lt_one_iff.mp (Nat.lt_of_lt_of_le (placed.tid_lt stands) single)
    -- the only thread number there is cannot stand in two places
    have same : thread.tid = current.tid := (first other).trans (first own).symm
    rw [same] at other
    exact elsewhere (Option.some.inj ((placed.located.mem_iff.mp other).symm.trans (placed.located.mem_iff.mp own)))
  dropped blocks := by
    rw [awaits] at blocks
    cases blocks

/-- `init` alone exits, and its process is reported ended. -/
theorem wellReported_single : ∃ history k,
    KernelRun 0x1000 ⟨none, none, 0⟩ ⟨0x400000, 0x2000, 0x10000⟩ history k ∧
    history.map Prod.snd = [.yieldNow, .dispatch 1, .exitCurrentThread 0 0] ∧
    (k.processes 0).terminated = true ∧ WellReported history k := by
  obtain ⟨history, k, run, labels, guarded, ended⟩ := Base.Run.of_check step
    (fun k op => decide (k.nextTid ≤ 1) && (k.awaiting op).isNone)
    (booted 0x1000 ⟨none, none, 0⟩ ⟨0x400000, 0x2000, 0x10000⟩)
    [.yieldNow, .dispatch 1, .exitCurrentThread 0 0] (fun k => (k.processes 0).terminated) (by decide +kernel)
  refine ⟨history, k, run, labels, ended, (wellReported_iff run).mpr fun entry member => ?_⟩
  obtain ⟨_, reached⟩ := run.reaches_entry member
  have alone := guarded entry member
  simp only [Bool.and_eq_true, decide_eq_true_eq, Option.isNone_iff_eq_none] at alone
  exact departsLast_of_single reached alone.1 alone.2

/-! ## Stopping -/

def Alone (k : Kernel) : Prop := ∀ place, place ≠ .current → k.occupants place = []

/-- The next thread is there, and the state stored for it leads to its frame. -/
def handsOver (k : Kernel) (current : Thread) : Bool :=
  match (k.retire current).scheduler.runQueue with
  | next :: _ => (k.frames next.tid).any fun frame => frame.1 == next.state
  | [] => false

/-- The others after an exit: the blocked ones are where they were, the rest can run. -/
structure OthersKept (k after : Kernel) (current : Thread) : Prop where
  blocked : ∀ place,
    place ≠ .current → place ≠ .runQueue → (∀ p, current.processState = some p → place ≠ .waitQueue p) →
    after.occupants place = k.occupants place
  runnable : after.occupants .current ++ after.occupants .runQueue = k.successors current

theorem occupants_retire {current : Thread} {place : Place} (elsewhere : place ≠ .current) (blocked : place ≠ .runQueue)
    (foreign : ∀ p, current.processState = some p → place ≠ .waitQueue p) :
    (k.retire current).occupants place = k.occupants place := by
  unfold retire
  cases process : current.processState with
  | none => cases place <;> simp_all [occupants, residents, emit]
  | some p =>
    cases place with
    | waitQueue q =>
      have different : q ≠ p := fun same => foreign p process (by rw [same])
      simp [occupants, residents, emit, setProcess, different]
    | _ => simp_all [occupants, residents, emit, setProcess]

theorem exit_cases {current : Thread} (isCurrent : k.scheduler.current = some current) (rax rsp : UInt64) :
    (k.successors current = [] ∧ k.exitCurrentThread rax rsp = (k.retire current).panic) ∨
    ∃ next rest started, (k.retire current).scheduler.runQueue = next :: rest ∧
      k.exitCurrentThread rax rsp = Kernel.resume started next.tid next.state rax ∧
      started.frames = k.frames ∧ started.occupants = ((k.retire current).makeCurrent next rest).occupants := by
  unfold exitCurrentThread
  rw [isCurrent, ← runQueue_retire]
  dsimp only
  cases queued : (k.retire current).scheduler.runQueue with
  | nil => exact .inl ⟨by simp [occupants, residents, queued], rfl⟩
  | cons next rest =>
    right
    cases state : next.state with
    | cooperative sp =>
      exact ⟨next, rest, (k.retire current).makeCurrent next rest, rfl, by simp only [state],
        frames_retire current, rfl⟩
    | preemptive sp =>
      refine ⟨next, rest, ((k.retire current).makeCurrent next rest).afterSwitch rsp, rfl, by simp only [state], ?_, ?_⟩
      · rw [frames_afterSwitch]
        exact frames_retire current
      · rw [unswitched_occupants.afterSwitch]

theorem othersKept_exit {current : Thread} (isCurrent : k.scheduler.current = some current) (rax rsp : UInt64) :
    k.OthersKept (k.exitCurrentThread rax rsp) current where
  runnable := runnable_exit isCurrent rax rsp
  blocked place elsewhere notQueued foreign := by
    have retired := occupants_retire (k := k) elsewhere notQueued foreign
    rcases exit_cases isCurrent rax rsp with ⟨_, stopped⟩ | ⟨next, rest, started, _, resumed, _, occupants⟩
    · rw [stopped]
      exact retired
    · rw [resumed, unswitched_occupants.resume, occupants, occupants_makeCurrent_all, Function.update_of_ne elsewhere,
        Function.update_of_ne notQueued, retired]

theorem halted_exit_iff {current : Thread} (isCurrent : k.scheduler.current = some current) (rax rsp : UInt64) :
    (k.exitCurrentThread rax rsp).cpu = .halted ↔ k.successors current = [] := by
  rcases exit_cases isCurrent rax rsp with ⟨none, stopped⟩ | ⟨next, rest, started, queued, resumed, _⟩
  · rw [stopped]
    exact iff_of_true rfl none
  · have some : k.successors current ≠ [] := by
      rw [← runQueue_retire]
      simp [occupants, residents, queued]
    rw [resumed]
    refine iff_of_false ?_ some
    rcases started.cpu_resume next.tid next.state rax with running | astray
    · simp [running]
    · simp [astray]

theorem running_resume_iff {tid : Tid} {state : SavedThreadState} {rax : UInt64} :
    (∃ who, (k.resume tid state rax).cpu = .running who) ↔ ∃ resume, k.frames tid = some (state, resume) := by
  rcases k.resume_cases tid state rax with ⟨missing, lost⟩ | ⟨resume, found, resumed⟩
  · rw [lost]
    exact iff_of_false (by simp) (by simpa using missing)
  · rw [resumed]
    refine iff_of_true ⟨tid, ?_⟩ ⟨resume, found⟩
    unfold continueAt
    cases resume.receivesFrom <;> rfl

theorem running_exit_iff {current : Thread} (isCurrent : k.scheduler.current = some current) (rax rsp : UInt64) :
    (∃ who, (k.exitCurrentThread rax rsp).cpu = .running who) ↔ k.handsOver current = true := by
  rcases exit_cases isCurrent rax rsp with ⟨none, stopped⟩ | ⟨next, rest, started, queued, resumed, frames, _⟩
  · have empty : (k.retire current).scheduler.runQueue = [] := by
      rw [← runQueue_retire] at none
      exact List.map_eq_nil_iff.mp none
    rw [stopped, handsOver, empty]
    simp [panic]
  · rw [resumed, running_resume_iff, handsOver, queued, frames]
    simp [Option.any_eq_true]

/-- An exit stops the system only when nobody is left; otherwise another thread runs on and everyone
keeps their place. -/
structure StopsLast (k after : Kernel) (current : Thread) : Prop where
  stops : after.cpu = .halted → k.Alone
  goesOn : ¬ k.Alone → ∃ tid, after.cpu = .running tid
  others : k.OthersKept after current

/-- In a run whose switches were all safe the stored states lead to their frames. -/
theorem handsOver_iff (run : KernelRun bootCr3 info image history k) {current : Thread}
    (isCurrent : k.scheduler.current = some current) (running : k.cpu = .running current.tid)
    (safe : ∀ entry ∈ history, entry.1.switchSafe entry.2 = true) :
    k.handsOver current = true ↔ k.successors current ≠ [] := by
  rw [← runQueue_retire, handsOver]
  cases queued : (k.retire current).scheduler.runQueue with
  | nil => simp [occupants, residents, queued]
  | cons next rest =>
    obtain ⟨loc, placed, _⟩ := placed_of_run run
    obtain ⟨ready, _⟩ := ready_exit (synced_of_run run safe) placed.located running isCurrent queued 0
    obtain ⟨resume, frame⟩ := ready.stopped.frame
    have own : k.frames next.tid = some (next.state, resume) := (congrFun (frames_retire current) _).symm.trans frame
    simp [occupants, residents, queued, own]

theorem stopsLast_exit_iff {current : Thread} (isCurrent : k.scheduler.current = some current) (rax rsp : UInt64) :
    k.StopsLast (k.exitCurrentThread rax rsp) current ↔ k.Alone ∨ k.handsOver current = true := by
  rw [← running_exit_iff isCurrent rax rsp]
  constructor
  · intro stops
    rw [or_iff_not_imp_left]
    exact stops.goesOn
  · rintro (alone | ⟨who, running⟩)
    · exact ⟨fun _ => alone, fun others => absurd alone others, othersKept_exit isCurrent rax rsp⟩
    · refine ⟨fun halted => ?_, fun _ => ⟨who, running⟩, othersKept_exit isCurrent rax rsp⟩
      rw [running] at halted
      cases halted

/-- An exit leaves the system to those who are left exactly when nobody is, or the front of those that
can run, counting the ones it wakes, can be switched to. -/
theorem stopsLast_iff (run : KernelRun bootCr3 info image history k) {current : Thread}
    (isCurrent : k.scheduler.current = some current) (rax rsp : UInt64) :
    (k.StopsLast (k.exitCurrentThread rax rsp) current ↔ k.Alone ∨ k.handsOver current = true) ∧
    ((k.exitCurrentThread rax rsp).cpu = .halted ↔ k.successors current = []) ∧
    (k.cpu = .running current.tid → (∀ entry ∈ history, entry.1.switchSafe entry.2 = true) →
      (k.handsOver current = true ↔ k.successors current ≠ [])) :=
  ⟨stopsLast_exit_iff isCurrent rax rsp, halted_exit_iff isCurrent rax rsp, handsOver_iff run isCurrent⟩

/-- `init` waits for the keyboard when its other thread exits, and the kernel panics. -/
theorem exit_stops_with_waiter : ∃ history k current,
    KernelRun 0x1000 ⟨none, none, 0⟩ ⟨0x400000, 0x2000, 0x10000⟩ history k ∧
    history.map Prod.snd = [.yieldNow, .dispatch 1, .spawnThread 0x400100 0x7000 0x20000, .sysWaitIrq 1,
      .dispatch 0x11e00] ∧ k.scheduler.current = some current ∧ k.occupants (.irq 1) = [0] ∧
    (k.exitCurrentThread 0 0).cpu = .halted ∧ ¬ k.StopsLast (k.exitCurrentThread 0 0) current := by
  obtain ⟨history, k, run, labels, _, checked⟩ := Base.Run.of_check step (fun _ _ => true)
    (booted 0x1000 ⟨none, none, 0⟩ ⟨0x400000, 0x2000, 0x10000⟩)
    [.yieldNow, .dispatch 1, .spawnThread 0x400100 0x7000 0x20000, .sysWaitIrq 1, .dispatch 0x11e00]
    (fun k => k.scheduler.current.isSome && k.occupants (.irq 1) == [0] &&
      decide ((k.exitCurrentThread 0 0).cpu = .halted)) (by decide +kernel)
  simp only [Bool.and_eq_true, beq_iff_eq, decide_eq_true_eq, Option.isSome_iff_exists] at checked
  obtain ⟨⟨⟨current, isCurrent⟩, waiting⟩, halted⟩ := checked
  refine ⟨history, k, current, run, labels, isCurrent, waiting, halted, fun stops => ?_⟩
  have empty := stops.stops halted (.irq 1) (by simp)
  rw [waiting] at empty
  cases empty

/-- With a thread in the run queue the exit hands over to it. -/
theorem exit_hands_over : ∃ history k current,
    KernelRun 0x1000 ⟨none, none, 0⟩ ⟨0x400000, 0x2000, 0x10000⟩ history k ∧
    history.map Prod.snd = [.yieldNow, .dispatch 1, .spawnThread 0x400100 0x7000 0x20000] ∧
    k.scheduler.current = some current ∧ k.handsOver current = true ∧
    k.StopsLast (k.exitCurrentThread 0 0) current := by
  obtain ⟨history, k, run, labels, _, checked⟩ := Base.Run.of_check step (fun _ _ => true)
    (booted 0x1000 ⟨none, none, 0⟩ ⟨0x400000, 0x2000, 0x10000⟩)
    [.yieldNow, .dispatch 1, .spawnThread 0x400100 0x7000 0x20000]
    (fun k => k.scheduler.current.any fun current => k.handsOver current) (by decide +kernel)
  obtain ⟨current, isCurrent, ready⟩ := (Option.any_eq_true _ _).mp checked
  exact ⟨history, k, current, run, labels, isCurrent, ready, (stopsLast_iff run isCurrent 0 0).1.mpr (.inr ready)⟩

end ElseOS.Kernel
