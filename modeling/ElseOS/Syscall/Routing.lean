import ElseOS.Machine

/-! The way of a device interrupt.

The IRQ number of the network card is decided three times: by the bus scan, which is what
boot grants a capability for; by the IOAPIC, which boot tells to deliver it as vector 47;
and by the handler of that vector. -/

set_option autoImplicit false

namespace ElseOS

/-- What the configuration space of a slot of bus 0 answers. -/
structure PciSlot where
  id : UInt32
  bar0 : UInt32
  /-- `BAR0` after all ones were written to it. -/
  bar0Sized : UInt32
  interrupt : UInt32
  deriving DecidableEq, Repr

namespace PciSlot

def scan (slot : PciSlot) : Option PciDevice :=
  let vendorId := slot.id &&& 0xFFFF
  let deviceId := (slot.id >>> 16) &&& 0xFFFF
  if vendorId = 0xFFFF then none
  else if vendorId = 0x10EC ∧ deviceId = 0x8139 then
    let irqLine := (slot.interrupt &&& 0xFF).toUInt8
    if slot.bar0 &&& 1 = 1 then some ⟨slot.bar0 &&& ~~~0x3, ~~~(slot.bar0Sized &&& ~~~0x3) + 1, true, irqLine⟩
    else some ⟨slot.bar0 &&& ~~~0xF, ~~~(slot.bar0Sized &&& ~~~0xF) + 1, false, irqLine⟩
  else none

end PciSlot

def scanBusZero (slots : Fin 32 → PciSlot) : Option PciDevice :=
  (List.finRange 32).findSome? fun slot => (slots slot).scan

def nicVector : UInt8 := 47

/-- The device handlers in the interrupt descriptor table. -/
def handlerOf (vector : UInt8) : Option Device :=
  if vector = 33 then some .keyboard else if vector = 46 then some .ata else if vector = 47 then some .rtl8139 else none

namespace Kernel

/-- An interrupt with this number goes to the thread that waits for it; if there is none it
is noted, and nothing else is. -/
structure Delivers (irq : UInt8) (k after : Kernel) : Prop where
  hands : ∀ thread, k.scheduler.irqWaiters irq = some thread →
    after.scheduler.runQueue = k.scheduler.runQueue ++ [thread] ∧ after.scheduler.irqWaiters irq = none
  notes : k.scheduler.irqWaiters irq = none →
    after.scheduler.pendingIrqs = Function.update k.scheduler.pendingIrqs irq true

theorem delivers_unblockIrq (k : Kernel) (irq : UInt8) : Delivers irq k (k.unblockIrq irq) where
  hands := by
    intro thread waiting
    unfold unblockIrq
    rw [waiting]
    exact ⟨rfl, Function.update_self ..⟩
  notes := by
    intro free
    unfold unblockIrq
    rw [free]

theorem interrupts_booted (bootCr3 : UInt64) (info : BootInfo) (image : InitImage) :
    (booted bootCr3 info image).cpu = .boot ∧
      ∀ irq, (booted bootCr3 info image).scheduler.irqWaiters irq = none ∧
        (booted bootCr3 info image).scheduler.pendingIrqs irq = false :=
  ⟨rfl, fun _ => ⟨rfl, rfl⟩⟩

end Kernel

namespace Machine

variable {paging : Paging}

def deliver (platform : Platform) (m : Machine paging) (vector : UInt8) : Option (Machine paging) :=
  (handlerOf vector).bind fun device => m.step platform (.interrupt device)

theorem deliver_nic (platform : Platform) (m : Machine paging) :
    m.deliver platform nicVector =
      if m.kernel.cpu.interruptible then some { m with kernel := m.kernel.unblockIrq 11 } else none := by
  change (m.kernel.whenInterruptible (m.kernel.unblockIrq 11)).map _ = _
  unfold Kernel.whenInterruptible
  split <;> rfl

theorem delivers_of_deliver {platform : Platform} {m after : Machine paging}
    (fired : m.deliver platform nicVector = some after) : Kernel.Delivers 11 m.kernel after.kernel := by
  rw [deliver_nic] at fired
  split at fired
  · obtain rfl := Option.some.inj fired
    exact Kernel.delivers_unblockIrq m.kernel 11
  · cases fired

theorem nic_capability {info : BootInfo} {nic : PciDevice} (present : info.nic = some nic) :
    (info.cspace .new).get 20 = some (.interrupt nic.irqLine) := by
  unfold BootInfo.cspace BootInfo.grants
  rw [present, List.foldl_append, List.foldl_cons, List.foldl_cons, List.foldl_cons, List.foldl_nil,
    CSpace.get_insertAt, if_neg (show 20 ≠ 22 by decide), CSpace.get_insertAt, if_neg (show 20 ≠ 21 by decide),
    CSpace.get_insertAt, if_pos rfl]

/-- Boot grants the line that the scan found. The interrupts of the card reach whoever waits
for that line, in every run of the system, exactly if it is the one the handler has built in. -/
theorem nic_interrupt_delivered_iff {platform : Platform} {args : BootArgs paging} {booted : Machine paging}
    (slots : Fin 32 → PciSlot) (nic : PciDevice) (scanned : scanBusZero slots = some nic)
    (present : platform.nic = scanBusZero slots) (started : boot platform args = some booted) :
    (booted.kernel.cspaces 0).get 20 = some (.interrupt nic.irqLine) ∧
    ((∀ history m after, Base.Run (step platform) booted history m → m.deliver platform nicVector = some after →
      Kernel.Delivers nic.irqLine m.kernel after.kernel) ↔ nic.irqLine = 11) := by
  obtain ⟨_, image, _, _, _, kernel⟩ := boot_spec started
  obtain ⟨cpu, quiet⟩ :=
    Kernel.interrupts_booted args.cr3 ⟨platform.framebuffer, platform.nic, booted.dmaPool.phys⟩ image
  rw [← kernel] at cpu quiet
  refine ⟨?_, ?_, ?_⟩
  · rw [kernel]
    exact nic_capability (present.trans scanned)
  · -- the first interrupt after boot is noted under the handler's number
    intro delivers
    have fired := deliver_nic platform booted
    rw [cpu, if_pos (show Cpu.boot.interruptible = true from rfl)] at fired
    have wanted := (delivers [] booted _ .start fired).notes (quiet nic.irqLine).1
    have noted := (delivers_of_deliver fired).notes (quiet 11).1
    have flags := congrFun (wanted.symm.trans noted) 11
    by_contra other
    rw [Function.update_of_ne (Ne.symm other), Function.update_self, (quiet 11).2] at flags
    cases flags
  · intro line history m after _ fired
    rw [line]
    exact delivers_of_deliver fired

def sampleSlots (irqLine : UInt32) : Fin 32 → PciSlot := fun slot =>
  if slot = 3 then ⟨0x813910EC, 0xC001, 0xFFFFFF01, 0x100 ||| irqLine⟩ else ⟨0xFFFFFFFF, 0, 0, 0⟩

theorem nic_interrupt_delivered_sample : ∃ booted history m after,
    boot (samplePlatform (scanBusZero (sampleSlots 11))) sampleArgs = some booted ∧
    Base.Run (step (samplePlatform (scanBusZero (sampleSlots 11)))) booted history m ∧
    m.deliver (samplePlatform (scanBusZero (sampleSlots 11))) nicVector = some after ∧
    (m.kernel.scheduler.irqWaiters 11).isSome = true ∧ Kernel.Delivers 11 m.kernel after.kernel := by
  obtain ⟨booted, history, m, started, run, _, checked⟩ := sample_run (scanBusZero (sampleSlots 11))
    [sampleCall 8 20 0 0, .dispatch 0]
    (fun m => decide (m.kernel.cpu.interruptible = true ∧ (m.kernel.scheduler.irqWaiters 11).isSome = true))
    (by decide +kernel)
  obtain ⟨interruptible, waiting⟩ := of_decide_eq_true checked
  have scanned : scanBusZero (sampleSlots 11) = some ⟨0xC000, 0x100, true, 11⟩ := by decide +kernel
  obtain ⟨_, delivered⟩ := nic_interrupt_delivered_iff (sampleSlots 11) _ scanned rfl started
  have fired := (deliver_nic (samplePlatform (scanBusZero (sampleSlots 11))) m).trans (if_pos interruptible)
  exact ⟨booted, history, m, _, started, run, fired, waiting, delivered.mpr rfl history m _ run fired⟩

/-- The card is at line 10, `init` waits for it, and its interrupt leaves `init` waiting. -/
theorem nic_interrupt_lost : ∃ booted history m after,
    boot (samplePlatform (scanBusZero (sampleSlots 10))) sampleArgs = some booted ∧
    Base.Run (step (samplePlatform (scanBusZero (sampleSlots 10)))) booted history m ∧
    m.deliver (samplePlatform (scanBusZero (sampleSlots 10))) nicVector = some after ∧
    (m.kernel.scheduler.irqWaiters 10).isSome = true ∧ ¬ Kernel.Delivers 10 m.kernel after.kernel := by
  obtain ⟨booted, history, m, started, run, _, checked⟩ := sample_run (scanBusZero (sampleSlots 10))
    [sampleCall 8 20 0 0, .dispatch 0]
    (fun m => decide (m.kernel.cpu.interruptible = true ∧ (m.kernel.scheduler.irqWaiters 10).isSome = true ∧
      ((m.kernel.unblockIrq 11).scheduler.irqWaiters 10).isSome = true))
    (by decide +kernel)
  obtain ⟨interruptible, waiting, still⟩ := of_decide_eq_true checked
  have fired := (deliver_nic (samplePlatform (scanBusZero (sampleSlots 10))) m).trans (if_pos interruptible)
  refine ⟨booted, history, m, _, started, run, fired, waiting, ?_⟩
  intro delivers
  -- a delivery would have emptied the slot of line 10
  obtain ⟨thread, holds⟩ := Option.isSome_iff_exists.mp waiting
  rw [(delivers.hands thread holds).2] at still
  cases still

end Machine

end ElseOS
