import Mathlib.Data.List.DropRight
import ElseOS.Task.Unscheduled

/-! Interrupts and the threads that wait for them.

`unblock_irq` hands its notification to the waiting thread or leaves a flag for the next
wait. Seen from one IRQ, only `unblock_irq` and `sys_wait_irq` on that IRQ do anything. -/

set_option autoImplicit false

namespace ElseOS.Kernel

structure IrqState where
  pending : UInt8 → Bool
  waiter : UInt8 → Option Tid

def irqState (k : Kernel) : IrqState :=
  ⟨k.scheduler.pendingIrqs, fun irq => (k.scheduler.irqWaiters irq).map Thread.tid⟩

theorem unscheduled_irqState : Unscheduled irqState where
  cpu _ _ := rfl
  frames _ _ := rfl
  stateToUpdate _ _ := rfl
  emit _ _ _ := rfl
  writeState k ptr state := by
    cases ptr with
    | waitSlot p tid => rfl
    | boxed tid => simp [irqState, writeState, Function.comp_def]
  emitAny _ _ := rfl
  queues _ _ _ := rfl
  endpoints _ _ := rfl
  msgBuf _ _ := rfl
  hardware _ _ := rfl

def awaited (k : Kernel) : Op → Option UInt8
  | .sysWaitIrq handle =>
    match k.lookup handle with
    | some (_, _, some (.interrupt irq)) => some irq
    | _ => none
  | _ => none

def notifies (irq : UInt8) (op : Op) : Bool := op = .unblockIrq irq

/-- The step satisfies a wait: a notification finds a waiting thread, or a wait finds a notification. -/
def satisfies (irq : UInt8) (k : Kernel) (op : Op) : Bool :=
  (notifies irq op && (k.scheduler.irqWaiters irq).isSome) ||
    (k.awaited op = some irq && k.scheduler.pendingIrqs irq)

/-! ## One step -/

inductive IrqMoves (k : Kernel) : Op → IrqState → Prop where
  | unchanged {op : Op} : (∀ irq, op ≠ .unblockIrq irq) → k.awaited op = none → IrqMoves k op k.irqState
  | hand {irq : UInt8} {thread : Thread} : k.scheduler.irqWaiters irq = some thread →
      IrqMoves k (.unblockIrq irq) { k.irqState with waiter := Function.update k.irqState.waiter irq none }
  | latch {irq : UInt8} : k.scheduler.irqWaiters irq = none →
      IrqMoves k (.unblockIrq irq) { k.irqState with pending := Function.update k.irqState.pending irq true }
  | consume {op : Op} {irq : UInt8} : k.awaited op = some irq → k.scheduler.pendingIrqs irq = true →
      IrqMoves k op { k.irqState with pending := Function.update k.irqState.pending irq false }
  | block {op : Op} {irq : UInt8} {tid : Tid} : k.awaited op = some irq → k.scheduler.pendingIrqs irq = false →
      IrqMoves k op { k.irqState with waiter := Function.update k.irqState.waiter irq (some tid) }

variable {k after : Kernel} {op : Op}

theorem irqState_setIrqWaiter (k : Kernel) (irq : UInt8) (waiter : Option Thread) :
    (k.setIrqWaiter irq waiter).irqState =
      { k.irqState with waiter := Function.update k.irqState.waiter irq (waiter.map Thread.tid) } := by
  unfold irqState setIrqWaiter
  dsimp only
  congr 1
  funext other
  by_cases same : other = irq
  · subst same
    simp
  · simp [same]

theorem irqMoves_unblockIrq (irq : UInt8) : k.IrqMoves (.unblockIrq irq) (k.unblockIrq irq).irqState := by
  unfold unblockIrq
  split
  next thread waiting =>
    rw [unscheduled_irqState.pushBack, irqState_setIrqWaiter]
    exact .hand waiting
  next free => exact .latch free

theorem irqMoves_sysWaitIrq (handle : UInt64) : k.IrqMoves (.sysWaitIrq handle) (k.sysWaitIrq handle).1.irqState := by
  have idle (refused : k.awaited (.sysWaitIrq handle) = none) : k.IrqMoves (.sysWaitIrq handle) k.irqState :=
    .unchanged (by simp) refused
  rcases found : k.lookup handle with _ | ⟨current, cs, _ | cap⟩
  · simp only [sysWaitIrq, found]
    exact idle (by simp [awaited, found])
  · simp only [sysWaitIrq, found]
    exact idle (by simp [awaited, found])
  · cases cap with
    | interrupt irq =>
      have asked : k.awaited (.sysWaitIrq handle) = some irq := by simp [awaited, found]
      simp only [sysWaitIrq, found]
      split
      next pending => exact .consume asked pending
      next clear =>
        rw [unscheduled_irqState.block, irqState_setIrqWaiter, unscheduled_irqState.emitAny]
        exact .block asked (Bool.eq_false_iff.mpr clear)
    | _ =>
      simp only [sysWaitIrq, found]
      exact idle (by simp [awaited, found])

theorem irqMoves_of_step (taken : k.step op = some after) : k.IrqMoves op after.irqState := by
  have kept (same : after.irqState = k.irqState) (elsewhere : ∀ irq, op ≠ .unblockIrq irq)
      (unasked : k.awaited op = none) : k.IrqMoves op after.irqState := by
    rw [same]
    exact .unchanged elsewhere unasked
  by_cases schedules : op.schedules = true
  · apply kept (unscheduled_irqState.step taken schedules)
    · rintro irq rfl
      cases schedules
    · cases op <;> first | rfl | cases schedules
  · cases op with
    | unblockIrq irq =>
      obtain ⟨_, rfl⟩ := of_whenInterruptible taken
      exact irqMoves_unblockIrq irq
    | sysWaitIrq handle =>
      obtain ⟨_, rfl⟩ := of_whenRunning taken
      exact irqMoves_sysWaitIrq handle
    | newKernelThread entryPoint stackBase =>
      obtain ⟨_, rfl⟩ := of_newKernelThread taken
      exact kept rfl (by simp) rfl
    | exitCurrentThread rax rsp =>
      obtain ⟨_, rfl⟩ := of_whenRunning taken
      refine kept ?_ (by simp) rfl
      cases isCurrent : k.scheduler.current with
      | none => simp [exitCurrentThread, isCurrent, Kernel.panic, irqState]
      | some current =>
        rw [unscheduled_irqState.exitCurrentThread isCurrent]
        unfold retire
        cases current.processState <;> rfl
    | sysWait handle =>
      obtain ⟨_, rfl⟩ := of_whenRunning taken
      refine kept ?_ (by simp) rfl
      unfold sysWait
      split
      · rfl
      · split
        · dsimp only
          split <;> rfl
        · rfl
      · rfl
    | sysEndpointCreate =>
      obtain ⟨_, rfl⟩ := of_whenRunning taken
      refine kept ?_ (by simp) rfl
      unfold sysEndpointCreate
      split <;> rfl
    | spawnChild epHandle entryPoint cr3 stackBase =>
      obtain ⟨_, rfl⟩ := of_whenRunning taken
      refine kept ?_ (by simp) rfl
      unfold spawnChild
      split
      · rfl
      · dsimp only
        split <;> rfl
    | spawnThread entryPoint userStack stackBase =>
      obtain ⟨_, rfl⟩ := of_whenRunning taken
      refine kept ?_ (by simp) rfl
      unfold spawnThread
      split <;> rfl
    | grantMemory start len =>
      obtain ⟨_, rfl⟩ := of_whenRunning taken
      refine kept ?_ (by simp) rfl
      unfold grantMemory
      split <;> rfl
    | _ => exact absurd rfl schedules

/-! ## Whole runs -/

section Runs

variable (irq : UInt8)

def satisfied (history : List (Kernel × Op)) : Nat := history.countP fun entry => satisfies irq entry.1 entry.2

def notified (history : List (Kernel × Op)) : Nat := history.countP fun entry => notifies irq entry.2

def owed (history : List (Kernel × Op)) : Bool :=
  (history.rtakeWhile fun entry => !satisfies irq entry.1 entry.2).any fun entry => notifies irq entry.2

theorem satisfied_append (history : List (Kernel × Op)) :
    satisfied irq (history ++ [(k, op)]) = satisfied irq history + (satisfies irq k op).toNat := by
  cases here : satisfies irq k op <;> simp [satisfied, here]

theorem notified_append (history : List (Kernel × Op)) :
    notified irq (history ++ [(k, op)]) = notified irq history + (notifies irq op).toNat := by
  cases here : notifies irq op <;> simp [notified, here]

theorem owed_append (history : List (Kernel × Op)) :
    owed irq (history ++ [(k, op)]) = (!satisfies irq k op && (owed irq history || notifies irq op)) := by
  cases here : satisfies irq k op <;> simp [owed, here]

/-- The flag says whether a notification is owed, it is clear while a thread waits, and every satisfied
wait used up a notification of its own. -/
structure Accounted (history : List (Kernel × Op)) (k : Kernel) : Prop where
  flag : k.irqState.pending irq = owed irq history
  exclusive : k.irqState.pending irq = true → k.irqState.waiter irq = none
  covered : satisfied irq history + (k.irqState.pending irq).toNat ≤ notified irq history

theorem satisfies_false_of_idle (elsewhere : op ≠ .unblockIrq irq) (unasked : k.awaited op ≠ some irq) :
    satisfies irq k op = false ∧ notifies irq op = false := by
  simp [satisfies, notifies, elsewhere, unasked]

end Runs

variable {irq : UInt8} {history : List (Kernel × Op)}

theorem waiter_isSome : (k.irqState.waiter irq).isSome = (k.scheduler.irqWaiters irq).isSome := by
  simp [irqState]

theorem Accounted.idle (accounted : Accounted irq history k) (elsewhere : op ≠ .unblockIrq irq)
    (unasked : k.awaited op ≠ some irq) (pending : after.irqState.pending irq = k.irqState.pending irq)
    (waiter : after.irqState.waiter irq = k.irqState.waiter irq) :
    Accounted irq (history ++ [(k, op)]) after := by
  obtain ⟨unsatisfied, silent⟩ := satisfies_false_of_idle irq elsewhere unasked
  constructor
  · rw [pending, accounted.flag, owed_append, unsatisfied, silent]
    simp
  · rw [pending, waiter]
    exact accounted.exclusive
  · rw [satisfied_append, notified_append, unsatisfied, silent, pending]
    exact accounted.covered

theorem Accounted.hand (accounted : Accounted irq history k) {thread : Thread}
    (waiting : k.scheduler.irqWaiters irq = some thread)
    (pending : after.irqState.pending irq = k.irqState.pending irq) (waiter : after.irqState.waiter irq = none) :
    Accounted irq (history ++ [(k, .unblockIrq irq)]) after := by
  have held : (k.scheduler.irqWaiters irq).isSome = true := by simp [waiting]
  have satisfying : satisfies irq k (.unblockIrq irq) = true := by simp [satisfies, notifies, held]
  -- flag and waiter exclude each other, so no notification is overwritten
  have clear : k.irqState.pending irq = false := by
    by_contra set
    have free := accounted.exclusive (by simpa using set)
    rw [← waiter_isSome, free] at held
    cases held
  have covered := accounted.covered
  constructor
  · rw [pending, clear, owed_append, satisfying]
    rfl
  · exact fun _ => waiter
  · rw [satisfied_append, notified_append, satisfying, pending]
    simp only [clear, Bool.toNat_false, Bool.toNat_true, notifies, decide_true] at covered ⊢
    omega

/-- Nobody waits: the notification is kept, at most one of several. -/
theorem Accounted.latch (accounted : Accounted irq history k) (free : k.scheduler.irqWaiters irq = none)
    (pending : after.irqState.pending irq = true) (waiter : after.irqState.waiter irq = k.irqState.waiter irq) :
    Accounted irq (history ++ [(k, .unblockIrq irq)]) after := by
  have unsatisfied : satisfies irq k (.unblockIrq irq) = false := by simp [satisfies, free, awaited]
  have covered := accounted.covered
  constructor
  · rw [pending, owed_append, unsatisfied]
    simp [notifies]
  · intro _
    rw [waiter]
    simp [irqState, free]
  · rw [satisfied_append, notified_append, unsatisfied, pending]
    simp only [Bool.toNat_false, Bool.toNat_true, notifies, decide_true]
    omega

theorem Accounted.consume (accounted : Accounted irq history k) (asked : k.awaited op = some irq)
    (elsewhere : op ≠ .unblockIrq irq) (set : k.irqState.pending irq = true)
    (pending : after.irqState.pending irq = false) : Accounted irq (history ++ [(k, op)]) after := by
  have flagged : k.scheduler.pendingIrqs irq = true := set
  have satisfying : satisfies irq k op = true := by simp [satisfies, asked, flagged]
  have silent : notifies irq op = false := by simp [notifies, elsewhere]
  have covered := accounted.covered
  constructor
  · rw [pending, owed_append, satisfying]
    rfl
  · simp [pending]
  · rw [satisfied_append, notified_append, satisfying, silent, pending]
    rw [set] at covered
    simpa using covered

theorem Accounted.block (accounted : Accounted irq history k) (elsewhere : op ≠ .unblockIrq irq)
    (clear : k.irqState.pending irq = false) (pending : after.irqState.pending irq = k.irqState.pending irq) :
    Accounted irq (history ++ [(k, op)]) after := by
  have unflagged : k.scheduler.pendingIrqs irq = false := clear
  have unsatisfied : satisfies irq k op = false := by simp [satisfies, notifies, elsewhere, unflagged]
  have silent : notifies irq op = false := by simp [notifies, elsewhere]
  constructor
  · rw [pending, accounted.flag, owed_append, unsatisfied, silent]
    simp
  · simp [pending, clear]
  · rw [satisfied_append, notified_append, unsatisfied, silent, pending]
    exact accounted.covered

theorem unblockIrq_ne_of_awaited {other : UInt8} (asked : k.awaited op = some other) : op ≠ .unblockIrq irq := by
  rintro rfl
  cases asked

theorem steady_of_step (taken : k.step op = some after) (elsewhere : op ≠ .unblockIrq irq)
    (unasked : k.awaited op ≠ some irq) :
    after.irqState.pending irq = k.irqState.pending irq ∧ after.irqState.waiter irq = k.irqState.waiter irq := by
  have moves := irqMoves_of_step taken
  generalize after.irqState = state at moves
  cases moves with
  | unchanged => exact ⟨rfl, rfl⟩
  | @hand other thread waiting =>
    have different : irq ≠ other := fun same => elsewhere (same ▸ rfl)
    exact ⟨rfl, Function.update_of_ne different _ _⟩
  | @latch other free =>
    have different : irq ≠ other := fun same => elsewhere (same ▸ rfl)
    exact ⟨Function.update_of_ne different _ _, rfl⟩
  | @consume _ other asked set =>
    have different : irq ≠ other := fun same => unasked (same ▸ asked)
    exact ⟨Function.update_of_ne different _ _, rfl⟩
  | @block _ other tid asked clear =>
    have different : irq ≠ other := fun same => unasked (same ▸ asked)
    exact ⟨rfl, Function.update_of_ne different _ _⟩

theorem Accounted.step (accounted : Accounted irq history k) (taken : k.step op = some after) :
    Accounted irq (history ++ [(k, op)]) after := by
  -- steps about this IRQ change the account, all others leave flag and slot alone
  by_cases about : op = .unblockIrq irq ∨ k.awaited op = some irq
  · have moves := irqMoves_of_step taken
    generalize state : after.irqState = observed at moves
    cases moves with
    | unchanged elsewhere unasked =>
      rcases about with same | asked
      · exact absurd same (elsewhere irq)
      · rw [unasked] at asked
        cases asked
    | @hand other thread waiting =>
      obtain rfl : other = irq := by simpa [awaited] using about
      exact accounted.hand waiting (by rw [state]) (by simp [state])
    | @latch other free =>
      obtain rfl : other = irq := by simpa [awaited] using about
      exact accounted.latch free (by simp [state]) (by rw [state])
    | @consume _ other asked set =>
      obtain rfl : other = irq := by simpa [asked, unblockIrq_ne_of_awaited asked] using about
      exact accounted.consume asked (unblockIrq_ne_of_awaited asked) set (by simp [state])
    | @block _ other tid asked clear =>
      obtain rfl : other = irq := by simpa [asked, unblockIrq_ne_of_awaited asked] using about
      exact accounted.block (unblockIrq_ne_of_awaited asked) clear (by rw [state])
  · obtain ⟨elsewhere, unasked⟩ := not_or.mp about
    obtain ⟨pending, waiter⟩ := steady_of_step taken elsewhere unasked
    exact accounted.idle elsewhere unasked pending waiter

variable {bootCr3 : UInt64} {info : BootInfo} {image : InitImage}

theorem accounted_of_run (run : KernelRun bootCr3 info image history k) : Accounted irq history k := by
  have initial : Accounted irq [] (booted bootCr3 info image) := by
    constructor
    · rfl
    · exact fun _ => rfl
    · exact Nat.le_refl 0
  exact run.induct (Accounted irq) initial fun _ accounted taken => accounted.step taken

structure Notified (irq : UInt8) (history : List (Kernel × Op)) (k : Kernel) : Prop where
  exclusive : ¬ (k.scheduler.pendingIrqs irq = true ∧ (k.scheduler.irqWaiters irq).isSome = true)
  prompt : owed irq history = true → ∀ handle, k.awaited (.sysWaitIrq handle) = some irq →
    (k.sysWaitIrq handle).2 = .done 0
  covered : satisfied irq history ≤ notified irq history
  apart : ∀ op after, k.step op = some after → (∃ other ≠ irq, op = .unblockIrq other ∨ k.awaited op = some other) →
    after.scheduler.pendingIrqs irq = k.scheduler.pendingIrqs irq ∧
      after.scheduler.irqWaiters irq = k.scheduler.irqWaiters irq
  steady : ∀ op after, k.step op = some after → op ≠ .unblockIrq irq → k.awaited op ≠ some irq →
    after.irqState.pending irq = k.irqState.pending irq ∧ after.irqState.waiter irq = k.irqState.waiter irq

theorem prompt_of_pending {handle : UInt64} (asked : k.awaited (.sysWaitIrq handle) = some irq)
    (pending : k.scheduler.pendingIrqs irq = true) : (k.sysWaitIrq handle).2 = .done 0 := by
  rcases found : k.lookup handle with _ | ⟨current, cs, _ | cap⟩
  · simp [awaited, found] at asked
  · simp [awaited, found] at asked
  · cases cap with
    | interrupt held =>
      obtain rfl : held = irq := by simpa [awaited, found] using asked
      have set : (k.emit (.irqWaited held current.tid)).scheduler.pendingIrqs held = true := pending
      simp [sysWaitIrq, found, set]
    | _ => simp [awaited, found] at asked

theorem apart_of_step {other : UInt8} (taken : k.step op = some after) (different : other ≠ irq)
    (about : op = .unblockIrq other ∨ k.awaited op = some other) :
    after.scheduler.pendingIrqs irq = k.scheduler.pendingIrqs irq ∧
      after.scheduler.irqWaiters irq = k.scheduler.irqWaiters irq := by
  rcases about with rfl | asked
  · obtain ⟨_, rfl⟩ := of_whenInterruptible taken
    unfold unblockIrq
    split
    · exact ⟨rfl, Function.update_of_ne different.symm _ _⟩
    · exact ⟨Function.update_of_ne different.symm _ _, rfl⟩
  · cases op with
    | sysWaitIrq handle =>
      obtain ⟨_, rfl⟩ := of_whenRunning taken
      rcases found : k.lookup handle with _ | ⟨current, cs, _ | cap⟩
      · simp [awaited, found] at asked
      · simp [awaited, found] at asked
      · cases cap with
        | interrupt held =>
          obtain rfl : held = other := by simpa [awaited, found] using asked
          simp only [sysWaitIrq, found]
          split
          · exact ⟨Function.update_of_ne different.symm _ _, rfl⟩
          · exact ⟨rfl, Function.update_of_ne different.symm _ _⟩
        | _ => simp [awaited, found] at asked
    | _ => cases asked

/-- No notification is lost, whatever the order of interrupts and waits. -/
theorem notified_of_run (run : KernelRun bootCr3 info image history k) (irq : UInt8) : Notified irq history k := by
  have accounted : Accounted irq history k := accounted_of_run run
  constructor
  · rintro ⟨pending, waiting⟩
    have free := accounted.exclusive pending
    rw [← waiter_isSome, free] at waiting
    cases waiting
  · intro owes handle asked
    exact prompt_of_pending asked (accounted.flag.trans owes)
  · exact Nat.le_of_add_right_le accounted.covered
  · rintro op after taken ⟨other, different, about⟩
    exact apart_of_step taken different about
  · intro op after taken elsewhere unasked
    exact steady_of_step taken elsewhere unasked

/-- The keyboard interrupts twice before `init` waits for it: the first wait uses up both. -/
theorem notified_keyboard : ∃ history k, KernelRun 0x1000 ⟨none, none, 0⟩ ⟨0x400000, 0x2000, 0x10000⟩ history k ∧
    history.map Prod.snd = [.yieldNow, .dispatch 1, .unblockIrq 1, .unblockIrq 1, .sysWaitIrq 1] ∧
    k.scheduler.pendingIrqs 1 = false ∧ Notified 1 history k := by
  obtain ⟨history, k, run, labels, _, clear⟩ := Base.Run.of_check step (fun _ _ => true)
    (booted 0x1000 ⟨none, none, 0⟩ ⟨0x400000, 0x2000, 0x10000⟩)
    [.yieldNow, .dispatch 1, .unblockIrq 1, .unblockIrq 1, .sysWaitIrq 1]
    (fun k => !k.scheduler.pendingIrqs 1) (by decide +kernel)
  exact ⟨history, k, run, labels, by simpa using clear, notified_of_run run 1⟩

end ElseOS.Kernel
