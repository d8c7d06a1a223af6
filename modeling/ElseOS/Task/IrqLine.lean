import ElseOS.Task.Interrupts

/-! One IRQ as a driver sees it: somebody waits, or an interrupt is noted for the next wait. -/

set_option autoImplicit false

namespace ElseOS

structure IrqLine where
  waiting : Bool
  pending : Bool
  deriving DecidableEq, Repr

namespace IrqLine

def quiet : IrqLine := ⟨false, false⟩

def unblock (line : IrqLine) : IrqLine :=
  if line.waiting then { line with waiting := false } else { line with pending := true }

def wait (line : IrqLine) : IrqLine :=
  if line.pending then { line with pending := false } else { line with waiting := true }

end IrqLine

namespace Kernel

def irqLine (k : Kernel) (irq : UInt8) : IrqLine := ⟨(k.irqState.waiter irq).isSome, k.irqState.pending irq⟩

variable {k after : Kernel} {op : Op}

/-- The kernel moves each line by these two operations and leaves it alone otherwise. -/
theorem irqLine_of_step (taken : k.step op = some after) (irq : UInt8) :
    after.irqLine irq =
      if op = .unblockIrq irq then (k.irqLine irq).unblock
      else if k.awaited op = some irq then (k.irqLine irq).wait
      else k.irqLine irq := by
  by_cases notifies : op = .unblockIrq irq
  · subst notifies
    rw [if_pos rfl]
    have moves := irqMoves_of_step taken
    unfold irqLine IrqLine.unblock
    generalize after.irqState = now at moves
    cases moves with
    | unchanged elsewhere _ => exact absurd rfl (elsewhere irq)
    | hand waiting => simp [irqState, waiting]
    | latch free => simp [irqState, free]
    | consume asked _ => cases asked
    | block asked _ => cases asked
  · rw [if_neg notifies]
    by_cases asks : k.awaited op = some irq
    · rw [if_pos asks]
      have moves := irqMoves_of_step taken
      unfold irqLine IrqLine.wait
      generalize after.irqState = now at moves
      cases moves with
      | unchanged _ unasked => rw [unasked] at asks; cases asks
      | hand _ => cases asks
      | latch _ => cases asks
      | consume asked pending =>
        obtain rfl := Option.some.inj (asked.symm.trans asks)
        simp [irqState, pending]
      | block asked clear =>
        obtain rfl := Option.some.inj (asked.symm.trans asks)
        simp [irqState, clear]
    · rw [if_neg asks]
      obtain ⟨pending, waiter⟩ := steady_of_step taken notifies asks
      unfold irqLine
      rw [pending, waiter]

end Kernel

end ElseOS
