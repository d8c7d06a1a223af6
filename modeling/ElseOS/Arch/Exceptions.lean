import ElseOS.Machine
import ElseOS.Task.Survivors

/-! The exception handlers of the interrupt table, and what is left of the system after them.

The privilege level of the gates is what the table's library puts there, so it is a
parameter; the processor compares it for `int3` and not for faults. -/

set_option autoImplicit false

namespace ElseOS

def userModeBit : UInt64 := 4

inductive Privilege where
  | user | kernel
  deriving DecidableEq, Repr

/-- The error code of a page fault: the processor records the privilege of the access next to the rest. -/
def pageFaultCode (cause : UInt64) : Privilege → UInt64
  | .user => cause ||| userModeBit
  | .kernel => cause &&& ~~~userModeBit

/-- What a running thread can raise in its own code, and what the kernel meets on its behalf. -/
inductive Incident where
  | divideError
  | breakpoint
  | invalidOpcode
  | generalProtection (errorCode : UInt64)
  | pageFault (cause : UInt64)
  /-- A page fault of the kernel at an address the thread passed to a call. -/
  | kernelAccess (cause : UInt64)
  deriving DecidableEq, Repr

inductive Ending where
  | resumed | exited | stuck
  deriving DecidableEq, Repr

namespace Machine

variable {paging : Paging}

/-! ## The handlers -/

/-- `loop { cpu::halt(); }`, with interrupts disabled by the gate. -/
def haltLoop (m : Machine paging) : Machine paging × Ending := ({ m with kernel := m.kernel.panic }, .stuck)

def breakpointHandler (m : Machine paging) : Machine paging × Ending := (m, .resumed)

def generalProtectionFaultHandler (m : Machine paging) (_errorCode : UInt64) : Machine paging × Ending := m.haltLoop

def invalidOpcodeHandler (m : Machine paging) : Machine paging × Ending := m.haltLoop

def divideErrorHandler (m : Machine paging) : Machine paging × Ending := m.haltLoop

def pageFaultHandler (m : Machine paging) (errorCode rax rsp : UInt64) : Machine paging × Ending :=
  if errorCode &&& userModeBit ≠ 0 then ({ m with kernel := m.kernel.exitCurrentThread rax rsp }, .exited)
  else m.haltLoop

def breakpointGate : UInt64 := 3 * 8 + 2

def raise (dpl : Nat) (m : Machine paging) (incident : Incident) (rax rsp : UInt64) : Machine paging × Ending :=
  match incident with
  | .divideError => m.divideErrorHandler
  | .breakpoint =>
    -- `int3` is the only exception raised by an instruction meant to, so its gate is checked
    if 3 ≤ dpl then m.breakpointHandler else m.generalProtectionFaultHandler breakpointGate
  | .invalidOpcode => m.invalidOpcodeHandler
  | .generalProtection errorCode => m.generalProtectionFaultHandler errorCode
  | .pageFault cause => m.pageFaultHandler (pageFaultCode cause .user) rax rsp
  | .kernelAccess cause => m.pageFaultHandler (pageFaultCode cause .kernel) rax rsp

/-- Where a call meets an address that passed its range check and cannot be accessed: the state the
kernel is in then. Only a receive has done anything before. -/
def faultsAt (platform : Platform) (m : Machine paging) (regs : Registers) (env : CallEnv) : Option (Machine paging) :=
  match regs.rax.toNat with
  | 2 => if userRange regs.rdi regs.rsi.toNat = true ∧ env.text = none then some m else none
  | 4 => if userRange regs.rsi messageSize = true ∧ env.message = none then some m else none
  | 5 =>
    match m.kernel.sysRecv regs.rdi with
    | (kernel, .done (.ok _)) =>
      if userRange regs.rsi messageSize = true ∧ env.writable = false then some { m with kernel := kernel } else none
    | _ => none
  | 6 => if userRange regs.rdi regs.rsi.toNat = true ∧ env.text = none then some m else none
  | 12 =>
    if userRange regs.rdi framebufferInfoSize = true ∧ platform.framebuffer.isSome = true ∧ env.writable = false then
      some m else none
  | _ => none

/-- The thread goes on as if nothing had happened, or it is gone and the others go on. -/
inductive Contained (m : Machine paging) (current : Thread) : Machine paging × Ending → Prop where
  | resumed : Contained m current (m, .resumed)
  | exited {kernel : Kernel} : m.kernel.StopsLast kernel current →
      Contained m current ({ m with kernel := kernel }, .exited)

def Containable (dpl : Nat) (m : Machine paging) (current : Thread) : Incident → Prop
  | .breakpoint => 3 ≤ dpl
  | .pageFault _ => m.kernel.Alone ∨ m.kernel.handsOver current = true
  | _ => False

section

variable {platform : Platform} {m : Machine paging} {current : Thread}

/-! ## Handlers and steps -/

/-- The page fault handler sees the privilege of the access, whatever else the code says. -/
theorem pageFaultHandler_user (cause rax rsp : UInt64) :
    m.pageFaultHandler (pageFaultCode cause .user) rax rsp =
      ({ m with kernel := m.kernel.exitCurrentThread rax rsp }, .exited) := by
  have bit : pageFaultCode cause .user &&& userModeBit = userModeBit := by
    apply UInt64.eq_of_toBitVec_eq
    rw [pageFaultCode, UInt64.toBitVec_and, UInt64.toBitVec_or]
    -- bit by bit: setting a bit and then selecting it gives the bit
    ext i inside
    rw [BitVec.getElem_and, BitVec.getElem_or]
    cases (UInt64.toBitVec userModeBit)[i] <;> simp
  rw [pageFaultHandler, bit]
  exact if_pos (by decide)

theorem pageFaultHandler_kernel (cause rax rsp : UInt64) :
    m.pageFaultHandler (pageFaultCode cause .kernel) rax rsp = m.haltLoop := by
  have bit : pageFaultCode cause .kernel &&& userModeBit = 0 := by
    rw [pageFaultCode, UInt64.and_assoc, UInt64.not_and_self, UInt64.and_zero]
  rw [pageFaultHandler, bit]
  exact if_neg (by simp)

theorem raise_cases (dpl : Nat) (incident : Incident) (rax rsp : UInt64) :
    (incident = .breakpoint ∧ 3 ≤ dpl ∧ m.raise dpl incident rax rsp = (m, .resumed)) ∨
    ((∃ cause, incident = .pageFault cause) ∧
      m.raise dpl incident rax rsp = ({ m with kernel := m.kernel.exitCurrentThread rax rsp }, .exited)) ∨
    ((incident = .breakpoint → ¬ 3 ≤ dpl) ∧ (∀ cause, incident ≠ .pageFault cause) ∧
      m.raise dpl incident rax rsp = m.haltLoop) := by
  cases incident with
  | breakpoint =>
    by_cases admitted : 3 ≤ dpl
    · exact .inl ⟨rfl, admitted, if_pos admitted⟩
    · exact .inr (.inr ⟨fun _ => admitted, by simp, if_neg admitted⟩)
  | pageFault cause => exact .inr (.inl ⟨⟨cause, rfl⟩, pageFaultHandler_user cause rax rsp⟩)
  | kernelAccess cause => exact .inr (.inr ⟨by simp, by simp, pageFaultHandler_kernel cause rax rsp⟩)
  | divideError => exact .inr (.inr ⟨by simp, by simp, rfl⟩)
  | invalidOpcode => exact .inr (.inr ⟨by simp, by simp, rfl⟩)
  | generalProtection errorCode => exact .inr (.inr ⟨by simp, by simp, rfl⟩)

/-- What an incident of a running thread leaves is what a step of the system leaves, or nothing new. -/
theorem run_raise {booted : Machine paging} {history : List (Machine paging × Act)}
    (run : Base.Run (step platform) booted history m) (running : m.kernel.cpu.isRunning = true) (dpl : Nat)
    (incident : Incident) (rax rsp : UInt64) :
    ∃ later, Base.Run (step platform) booted later (m.raise dpl incident rax rsp).1 := by
  have scheduled {op : Op} {kernel : Kernel} (taken : m.kernel.step op = some kernel) :
      m.schedule op = some { m with kernel := kernel } := by
    rw [schedule, taken]
    rfl
  -- a resumed thread adds no step; an exit and a halt are the steps of the same name
  rcases m.raise_cases dpl incident rax rsp with ⟨_, _, same⟩ | ⟨_, exited⟩ | ⟨_, _, stuck⟩
  · rw [same]
    exact ⟨history, run⟩
  · rw [exited]
    have taken : m.step platform (.pageFault rax rsp) = some { m with kernel := m.kernel.exitCurrentThread rax rsp } :=
      scheduled (step_of_running running)
    exact ⟨_, run.next taken⟩
  · rw [stuck]
    have taken : m.step platform .trap = some { m with kernel := m.kernel.panic } := scheduled (step_of_running running)
    exact ⟨_, run.next taken⟩

theorem handler_of_fault {regs : Registers} {env : CallEnv} {atFault : Machine paging}
    (faults : m.faultsAt platform regs env = some atFault) (dpl : Nat) (cause rax rsp : UInt64) :
    (m.syscallHandler platform regs env).1 = (atFault.raise dpl (.kernelAccess cause) rax rsp).1 := by
  have stuck : atFault.raise dpl (.kernelAccess cause) rax rsp = atFault.haltLoop :=
    pageFaultHandler_kernel cause rax rsp
  rw [stuck]
  have known {condition : Prop} [Decidable condition] {state : Machine paging}
      (found : (if condition then some state else none) = some atFault) : condition ∧ state = atFault := by
    obtain ⟨holds, same⟩ := Option.ite_none_right_eq_some.mp found
    exact ⟨holds, Option.some.inj same⟩
  -- one case for each call that dereferences a pointer it was passed
  unfold faultsAt at faults
  split at faults
  next call =>
    obtain ⟨⟨inside, missing⟩, rfl⟩ := known faults
    simp only [syscallHandler, call, sysLog, inside, missing, if_true]
    rfl
  next call =>
    obtain ⟨⟨inside, missing⟩, rfl⟩ := known faults
    simp only [syscallHandler, call, sysSend, inside, missing, if_true]
    rfl
  next call =>
    split at faults
    next kernel msg received =>
      obtain ⟨⟨inside, unwritable⟩, rfl⟩ := known faults
      simp only [syscallHandler, call, sysRecv, inside, received, unwritable, if_true]
      rfl
    next => cases faults
  next call =>
    obtain ⟨⟨inside, missing⟩, rfl⟩ := known faults
    simp only [syscallHandler, call, sysSpawn, inside, missing, if_true]
    rfl
  next call =>
    obtain ⟨⟨inside, present, unwritable⟩, rfl⟩ := known faults
    obtain ⟨info, here⟩ := Option.isSome_iff_exists.mp present
    simp only [syscallHandler, call, sysFramebufferInfo, inside, here, unwritable, if_true]
    rfl
  next => cases faults

/-! ## Containment -/

theorem Contained.ending {ended : Machine paging × Ending} (contained : Contained m current ended) :
    ended.2 = .resumed ∨ ended.2 = .exited ∧ m.kernel.StopsLast ended.1.kernel current := by
  cases contained with
  | resumed => exact .inl rfl
  | exited stopsLast => exact .inr ⟨rfl, stopsLast⟩

theorem not_contained_haltLoop : ¬ Contained m current m.haltLoop := by
  intro contained
  rcases contained.ending with resumed | ⟨exited, _⟩
  · cases resumed
  · cases exited

/-- Exceptions of user code are contained exactly when the thread is resumed by an admitted `int3`, or
when it is ended by a page fault and somebody can go on or nobody is left. A page fault of the kernel
never is, and every call that meets one at a checked address ends in it. -/
theorem contained_iff {args : BootArgs paging} {booted : Machine paging} {history : List (Machine paging × Act)}
    (started : boot platform args = some booted) (run : Base.Run (step platform) booted history m)
    (running : m.kernel.cpu.isRunning = true) :
    ∃ current, m.kernel.scheduler.current = some current ∧
      (∀ dpl incident rax rsp, (∃ later, Base.Run (step platform) booted later (m.raise dpl incident rax rsp).1) ∧
        (Contained m current (m.raise dpl incident rax rsp) ↔ m.Containable dpl current incident)) ∧
      ∀ regs env atFault, m.faultsAt platform regs env = some atFault → ∀ dpl cause rax rsp,
        (m.syscallHandler platform regs env).1 = (atFault.raise dpl (.kernelAccess cause) rax rsp).1 ∧
        ¬ Contained atFault current (atFault.raise dpl (.kernelAccess cause) rax rsp) := by
  obtain ⟨image, acts, scheduled⟩ := kernelRun_of_run started run
  obtain ⟨current, _, isCurrent, _⟩ :=
    (Kernel.populated_of_run scheduled).lookup_running (Kernel.orderly_of_run scheduled) running 0
  refine ⟨current, isCurrent, ?_, ?_⟩
  · intro dpl incident rax rsp
    refine ⟨run_raise run running dpl incident rax rsp, ?_⟩
    rcases m.raise_cases dpl incident rax rsp with ⟨rfl, admitted, same⟩ | ⟨⟨cause, rfl⟩, exited⟩ | ⟨gate, other, stuck⟩
    · rw [same]
      exact iff_of_true .resumed admitted
    · rw [exited]
      have stops := Kernel.stopsLast_exit_iff isCurrent rax rsp
      constructor
      · intro contained
        rcases contained.ending with resumed | ⟨_, stopsLast⟩
        · cases resumed
        · exact stops.mp stopsLast
      · intro condition
        exact .exited (stops.mpr condition)
    · rw [stuck]
      apply iff_of_false not_contained_haltLoop
      cases incident with
      | breakpoint => exact gate rfl
      | pageFault cause => exact absurd rfl (other cause)
      | _ => exact id
  · intro regs env atFault faults dpl cause rax rsp
    refine ⟨handler_of_fault faults dpl cause rax rsp, ?_⟩
    have stuck : atFault.raise dpl (.kernelAccess cause) rax rsp = atFault.haltLoop :=
      pageFaultHandler_kernel cause rax rsp
    rw [stuck]
    exact not_contained_haltLoop

end

/-- `init` divides by zero. -/
theorem divideError_uncontained : ∃ booted history m current, boot (samplePlatform none) sampleArgs = some booted ∧
    Base.Run (step (samplePlatform none)) booted history m ∧ history.map Prod.snd = sampleStart ∧
    m.kernel.scheduler.current = some current ∧ m.kernel.cpu = .running current.tid ∧
    (m.raise 0 .divideError 0 0).1.kernel.cpu = .halted ∧ ¬ Contained m current (m.raise 0 .divideError 0 0) := by
  obtain ⟨booted, history, m, started, run, labels, checked⟩ := sample_run none []
    (fun m => m.kernel.scheduler.current.any fun current => decide (m.kernel.cpu = .running current.tid))
    (by decide +kernel)
  obtain ⟨current, isCurrent, running⟩ := (Option.any_eq_true _ _).mp checked
  exact ⟨booted, history, m, current, started, run, labels, isCurrent, of_decide_eq_true running, rfl,
    not_contained_haltLoop⟩

theorem pageFault_contained : ∃ booted history m current, boot (samplePlatform none) sampleArgs = some booted ∧
    Base.Run (step (samplePlatform none)) booted history m ∧
    history.map Prod.snd = sampleStart ++ [sampleCall 16 0x400100 0x7000 0] ∧
    m.kernel.scheduler.current = some current ∧ Contained m current (m.raise 0 (.pageFault 0) 0 0) := by
  obtain ⟨booted, history, m, started, run, labels, checked⟩ := sample_run none [sampleCall 16 0x400100 0x7000 0]
    (fun m => m.kernel.cpu.isRunning && m.kernel.scheduler.current.any fun current => m.kernel.handsOver current)
    (by decide +kernel)
  rw [Bool.and_eq_true, Option.any_eq_true] at checked
  obtain ⟨running, other, isOther, ready⟩ := checked
  obtain ⟨current, isCurrent, contained, _⟩ := contained_iff started run running
  rw [isOther] at isCurrent
  cases isCurrent
  exact ⟨booted, history, m, other, started, run, labels, isOther, (contained 0 (.pageFault 0) 0 0).2.mpr (.inr ready)⟩

end Machine

end ElseOS
