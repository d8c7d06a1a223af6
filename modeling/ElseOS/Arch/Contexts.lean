import ElseOS.Arch.Sequences

/-! The saved contexts of `task/context.rs`, against the assembly that loads and stores them. -/

set_option autoImplicit false

namespace ElseOS.Arch

open Base (ByteMemory)
open Base.X86

/-! ## Cooperative threads -/

structure Context where
  r15 : UInt64
  r14 : UInt64
  r13 : UInt64
  r12 : UInt64
  rbp : UInt64
  rbx : UInt64
  rip : UInt64
  deriving DecidableEq, Repr

namespace Context

def words (context : Context) : List UInt64 :=
  [context.r15, context.r14, context.r13, context.r12, context.rbp, context.rbx, context.rip]

def empty : Context := ⟨0, 0, 0, 0, 0, 0, 0⟩

structure Loaded (context : Context) (cpu : Cpu) : Prop where
  r15 : cpu.regs .r15 = context.r15
  r14 : cpu.regs .r14 = context.r14
  r13 : cpu.regs .r13 = context.r13
  r12 : cpu.regs .r12 = context.r12
  rbp : cpu.regs .rbp = context.rbp
  rbx : cpu.regs .rbx = context.rbx
  rip : cpu.rip = context.rip

end Context

/-- The ways in which a thread that was switched away from, or a new one, gets the processor. -/
inductive Resumes (saved : UInt64) (cpu after : Cpu) : Prop where
  | switchContext : cpu.regs .rdi = saved → exec switchContext cpu = some after → Resumes saved cpu after
  | switchContextToCooperative : cpu.regs .rdi = saved → exec switchContextToCooperative cpu = some after →
      Resumes saved cpu after
  | timer : cpu.regs .rax = 0 → cpu.regs .rdx = saved → exec timerInterruptStubEnd cpu = some after →
      Resumes saved cpu after

variable {cpu after : Cpu} {saved : UInt64}

theorem exec_resumeCooperative_eq (stack : Reg) (cpu : Cpu) :
    exec (resumeCooperative stack) cpu = some ((cpu.set .rsp (cpu.regs stack)).popAll calleeSaved).ret := by
  rw [resumeCooperative, exec_straight, exec_ret, applyAll_mov_pops]

def pushedRegs : List Reg := [.rbp, .rbx, .r12, .r13, .r14, .r15]

theorem exec_switchContext_eq (cpu : Cpu) : exec switchContext cpu =
    some (((((cpu.pushAll pushedRegs).set .rax (cpu.pushAll pushedRegs).rsp).set .rsp (cpu.regs .rdi)).popAll
      calleeSaved).ret) := by
  have passed : ((cpu.pushAll pushedRegs).set .rax (cpu.pushAll pushedRegs).rsp).regs .rdi = cpu.regs .rdi := by
    rw [pushAll_eq]
    rfl
  have code : switchContext = straight (pushes pushedRegs ++ [.mov .rax .rsp]) ++ resumeCooperative .rdi := rfl
  rw [code, exec_straight, applyAll_pushes_mov, exec_resumeCooperative_eq, passed]

theorem Resumes.resume (resumes : Resumes saved cpu after) :
    ∃ before : Cpu, before.mode = cpu.mode ∧ after = ((before.set .rsp saved).popAll calleeSaved).ret := by
  cases resumes with
  | switchContext passed left =>
    rw [exec_switchContext_eq, passed] at left
    have mode : ((cpu.pushAll pushedRegs).set .rax (cpu.pushAll pushedRegs).rsp).mode = cpu.mode :=
      @mode_applyAll (pushes pushedRegs) (by simp [pushes]) cpu
    exact ⟨_, mode, (Option.some.inj left).symm⟩
  | switchContextToCooperative passed left =>
    rw [Arch.switchContextToCooperative, exec_resumeCooperative_eq, passed] at left
    exact ⟨cpu, rfl, (Option.some.inj left).symm⟩
  | timer tag passed left =>
    rw [exec_timerEnd, if_pos tag, exec_resumeCooperative_eq, (timerMoves_spec cpu).2.2, passed] at left
    exact ⟨_, mode_applyAll (by simp [timerMoves]) cpu, (Option.some.inj left).symm⟩

/-- The words at the saved stack pointer, wherever they come from. -/
theorem Resumes.spec {value : Reg → UInt64} {rip : UInt64} (resumes : Resumes saved cpu after)
    (holds : after.mem.Holds saved (calleeSaved.map value ++ [rip])) :
    (∀ reg ∈ calleeSaved, after.regs reg = value reg) ∧ after.rsp = saved + 56 ∧ after.rip = rip ∧
      after.mode = cpu.mode := by
  obtain ⟨before, mode, isAfter⟩ := resumes.resume
  have mem : after.mem = before.mem := by
    rw [isAfter, mem_ret, (popAll_eq (before.set .rsp saved) (by decide)).1]
    rfl
  have start : (before.set .rsp saved).rsp = saved := rsp_set before saved
  rw [mem, ← start] at holds
  have sum : saved + 8 * UInt64.ofNat calleeSaved.length + 8 = saved + 56 := by
    rw [show calleeSaved.length = 6 from rfl]
    grind
  rw [popAll_ret (by decide) holds, start, sum] at isAfter
  rw [isAfter]
  refine ⟨fun reg member => if_pos member, rfl, rfl, mode⟩

def Context.LoadedByName (context : Context) : Prop :=
  ∀ saved cpu after, Resumes saved cpu after → after.mem.Holds saved context.words → context.Loaded after

/-- Which field each register is loaded from: `rbx` and `rbp` are popped in the other order. -/
def Context.popped (context : Context) : Reg → UInt64
  | .r15 => context.r15
  | .r14 => context.r14
  | .r13 => context.r13
  | .r12 => context.r12
  | .rbx => context.rbp
  | .rbp => context.rbx
  | _ => 0

theorem Resumes.popped {context : Context} (resumes : Resumes saved cpu after)
    (holds : after.mem.Holds saved context.words) :
    (∀ reg ∈ calleeSaved, after.regs reg = context.popped reg) ∧ after.rip = context.rip := by
  obtain ⟨regs, _, rip, _⟩ := @Resumes.spec _ _ _ context.popped _ resumes holds
  exact ⟨regs, rip⟩

theorem exists_holds {words : List UInt64} (few : words.length ≤ 32) : ∃ cpu : Cpu, cpu.mem.Holds cpu.rsp words := by
  induction words with
  | nil => exact ⟨⟨fun _ => 0, 0, 0, 0, 0, 0, 0, fun _ => 0⟩, trivial⟩
  | cons word words ih =>
    rw [List.length_cons] at few
    obtain ⟨cpu, holds⟩ := ih (by omega)
    exact ⟨cpu.push word, push_holds holds word (by omega)⟩

theorem Context.resumed (context : Context) : ∃ saved cpu after, Resumes saved cpu after ∧
    after.mem.Holds saved context.words := by
  obtain ⟨cpu, holds⟩ := @exists_holds context.words (Nat.le_of_ble_eq_true rfl)
  have left := exec_resumeCooperative_eq .rdi (cpu.set .rdi cpu.rsp)
  refine ⟨cpu.rsp, cpu.set .rdi cpu.rsp, _, .switchContextToCooperative rfl left, ?_⟩
  rw [mem_ret, (popAll_eq _ (by decide)).1]
  exact holds

theorem Context.loadedByName_iff (context : Context) : context.LoadedByName ↔ context.rbp = context.rbx := by
  constructor
  · intro byName
    obtain ⟨saved, cpu, after, resumes, holds⟩ := context.resumed
    rw [← (byName saved cpu after resumes holds).rbp]
    exact (resumes.popped holds).1 .rbp (by decide)
  · intro same saved cpu after resumes holds
    obtain ⟨regs, rip⟩ := resumes.popped holds
    constructor
    · exact regs .r15 (by decide)
    · exact regs .r14 (by decide)
    · exact regs .r13 (by decide)
    · exact regs .r12 (by decide)
    · exact (regs .rbp (by decide)).trans same.symm
    · exact (regs .rbx (by decide)).trans same
    · exact rip

/-- The context of `new_user_thread`; that of a kernel thread has only the entry point. -/
def Context.newThread (trampoline entryPoint userStack : UInt64) : Context :=
  { Context.empty with rip := trampoline, r12 := entryPoint, r13 := userStack }

theorem Context.loadedByName_newThread (trampoline entryPoint userStack : UInt64) :
    (newThread trampoline entryPoint userStack).LoadedByName := (loadedByName_iff _).mpr rfl

/-! ## Preempted threads -/

structure InterruptContext where
  r15 : UInt64
  r14 : UInt64
  r13 : UInt64
  r12 : UInt64
  r11 : UInt64
  r10 : UInt64
  r9 : UInt64
  r8 : UInt64
  rdi : UInt64
  rsi : UInt64
  rbp : UInt64
  rbx : UInt64
  rdx : UInt64
  rcx : UInt64
  rax : UInt64
  rip : UInt64
  cs : UInt64
  rflags : UInt64
  rsp : UInt64
  ss : UInt64
  deriving DecidableEq, Repr

namespace InterruptContext

def reg (context : InterruptContext) : Reg → UInt64
  | .r15 => context.r15
  | .r14 => context.r14
  | .r13 => context.r13
  | .r12 => context.r12
  | .r11 => context.r11
  | .r10 => context.r10
  | .r9 => context.r9
  | .r8 => context.r8
  | .rdi => context.rdi
  | .rsi => context.rsi
  | .rbp => context.rbp
  | .rbx => context.rbx
  | .rdx => context.rdx
  | .rcx => context.rcx
  | .rax => context.rax
  | .rsp => context.rsp

def words (context : InterruptContext) : List UInt64 :=
  [context.r15, context.r14, context.r13, context.r12, context.r11, context.r10, context.r9, context.r8, context.rdi,
    context.rsi, context.rbp, context.rbx, context.rdx, context.rcx, context.rax,
    context.rip, context.cs, context.rflags, context.rsp, context.ss]

def ofCpu (cpu : Cpu) : InterruptContext where
  r15 := cpu.regs .r15
  r14 := cpu.regs .r14
  r13 := cpu.regs .r13
  r12 := cpu.regs .r12
  r11 := cpu.regs .r11
  r10 := cpu.regs .r10
  r9 := cpu.regs .r9
  r8 := cpu.regs .r8
  rdi := cpu.regs .rdi
  rsi := cpu.regs .rsi
  rbp := cpu.regs .rbp
  rbx := cpu.regs .rbx
  rdx := cpu.regs .rdx
  rcx := cpu.regs .rcx
  rax := cpu.regs .rax
  rip := cpu.rip
  cs := cpu.cs
  rflags := cpu.rflags
  rsp := cpu.rsp
  ss := cpu.ss

end InterruptContext

inductive Enters (frame : UInt64) (cpu after : Cpu) : Prop where
  | enterUser : cpu.regs .rdi = frame → exec enterUser cpu = some after → Enters frame cpu after
  | timer : cpu.regs .rax ≠ 0 → cpu.regs .rdx = frame → exec timerInterruptStubEnd cpu = some after →
      Enters frame cpu after

theorem exec_resumePreemptive_eq (stack : Reg) (cpu : Cpu) : exec (resumePreemptive stack) cpu =
    some (checkGs ((cpu.set .rsp (cpu.regs stack)).popAll contextRegs) 8).iretq := by
  rw [resumePreemptive, List.append_assoc, exec_straight, exec_swapgsUnlessKernel, exec_iretq, applyAll_mov_pops]

theorem Enters.enter {frame : UInt64} (enters : Enters frame cpu after) :
    ∃ before : Cpu, before.mem = cpu.mem ∧ after = (checkGs ((before.set .rsp frame).popAll contextRegs) 8).iretq := by
  cases enters with
  | enterUser passed left =>
    rw [Arch.enterUser, exec_resumePreemptive_eq, passed] at left
    exact ⟨cpu, rfl, (Option.some.inj left).symm⟩
  | timer tag passed left =>
    obtain ⟨_, mem, rcx⟩ := timerMoves_spec cpu
    rw [exec_timerEnd, if_neg tag, exec_resumePreemptive_append, exec_resumePreemptive_eq, rcx, passed] at left
    exact ⟨_, mem, (Option.some.inj left).symm⟩

theorem InterruptContext.ofCpu_eq {context : InterruptContext} (regs : ∀ reg, cpu.regs reg = context.reg reg)
    (rip : cpu.rip = context.rip) (cs : cpu.cs = context.cs) (rflags : cpu.rflags = context.rflags)
    (ss : cpu.ss = context.ss) : ofCpu cpu = context := by
  unfold ofCpu Cpu.rsp
  simp only [regs, rip, cs, rflags, ss, reg]

theorem resume_context {context : InterruptContext} (holds : cpu.mem.Holds cpu.rsp context.words) :
    InterruptContext.ofCpu (checkGs (cpu.popAll contextRegs) 8).iretq = context := by
  have registers : context.words = contextRegs.map context.reg ++
      [context.rip, context.cs, context.rflags, context.rsp, context.ss] := rfl
  have plain : Reg.rsp ∉ contextRegs := by decide
  rw [registers] at holds
  have popped := popAll_spec plain holds
  have frame := holds.drop
  rw [List.length_map] at frame
  have mem : (cpu.popAll contextRegs).mem = cpu.mem := by rw [popped]
  have rsp : (cpu.popAll contextRegs).rsp = cpu.rsp + 8 * UInt64.ofNat contextRegs.length := (popAll_eq cpu plain).2
  have regs : ∀ reg ∈ contextRegs, (cpu.popAll contextRegs).regs reg = context.reg reg := by
    intro reg member
    rw [popped]
    exact if_pos member
  rw [← rsp, ← mem] at frame
  generalize cpu.popAll contextRegs = restored at *
  have same : (checkGs restored 8).rsp = restored.rsp := congrFun (regs_checkGs restored 8) .rsp
  rw [← same, ← mem_checkGs restored 8] at frame
  rw [iretq_spec frame]
  apply InterruptContext.ofCpu_eq _ rfl rfl rfl rfl
  intro reg
  by_cases isRsp : reg = .rsp
  · subst isRsp
    exact rsp_set (checkGs restored 8) context.rsp
  · have member : reg ∈ contextRegs := by
      cases reg with
      | rsp => exact absurd rfl isRsp
      | _ => decide
    rw [← regs reg member, ← regs_checkGs restored 8]
    exact Function.update_of_ne isRsp _ _

theorem Enters.loads {frame : UInt64} {context : InterruptContext} (enters : Enters frame cpu after)
    (holds : cpu.mem.Holds frame context.words) : InterruptContext.ofCpu after = context := by
  obtain ⟨before, mem, isAfter⟩ := enters.enter
  have start : (before.set .rsp frame).rsp = frame := rsp_set before frame
  rw [← mem, ← start] at holds
  rw [isAfter]
  exact resume_context holds

/-! ## The timer's context -/

def timerRegs : List Reg := [.rax, .rcx, .rdx, .rbx, .rbp, .rsi, .rdi, .r8, .r9, .r10, .r11, .r12, .r13, .r14, .r15]

theorem call_stack (cpu : Cpu) (back : UInt64) :
    let called := cpu.applyAll [.mov .rdi .rsp, .call back]
    called.regs .rdi = cpu.rsp ∧ called.mem = cpu.mem.store (cpu.rsp - 8) back := ⟨rfl, rfl⟩

theorem timer_saves {words : List UInt64} (holds : cpu.mem.Holds cpu.rsp words) (few : words.length ≤ 16)
    {back : UInt64} (left : exec (timerInterruptStub back) cpu = some after) :
    after.mem.Holds (after.regs .rdi) (contextRegs.map cpu.regs ++ words) := by
  have code : timerInterruptStub back =
      swapgsUnlessKernel 8 ++ straight (pushes timerRegs ++ [.mov .rdi .rsp, .call back]) := rfl
  rw [code, exec_swapgsUnlessKernel, exec_straight_end, applyAll_append] at left
  have rsp : (checkGs cpu 8).rsp = cpu.rsp := congrFun (regs_checkGs cpu 8) .rsp
  rw [← mem_checkGs cpu 8, ← rsp] at holds
  have saved := @pushAll_holds (checkGs cpu 8) words holds timerRegs (by decide) (by
    rw [show timerRegs.length = 15 from rfl]
    omega)
  have order : timerRegs.reverse = contextRegs := rfl
  rw [regs_checkGs, order] at saved
  rw [← Cpu.pushAll] at left
  generalize (checkGs cpu 8).pushAll timerRegs = pushed at *
  obtain ⟨rdi, mem⟩ := call_stack pushed back
  obtain rfl := Option.some.inj left
  rw [rdi, mem]
  have total : (contextRegs.map cpu.regs ++ words).length ≤ 31 := by
    rw [List.length_append, List.length_map, show contextRegs.length = 15 from rfl]
    omega
  have apart : ByteMemory.Agree pushed.rsp (8 * 31) pushed.mem (pushed.push back).mem := by
    apply agree_push
    rw [UInt64.sub_self]
    decide
  exact apart.holds (by omega) (by decide) saved

/-- The timer stub passes the interrupted registers, under their own names. -/
theorem timer_context {stack handler back : UInt64}
    (left : exec (timerInterruptStub back) (cpu.interrupt stack handler kernelCs none) = some after) :
    after.mem.Holds (after.regs .rdi) (InterruptContext.ofCpu cpu).words := by
  have frame := interrupt_holds cpu stack handler kernelCs none
  have kept : ∀ reg ∈ contextRegs, (cpu.interrupt stack handler kernelCs none).regs reg = cpu.regs reg := by
    intro reg member
    apply regs_interrupt
    rintro rfl
    exact absurd member (by decide)
  have saved := timer_saves frame (Nat.le_of_ble_eq_true rfl) left
  rw [List.map_congr_left kept] at saved
  exact saved

/-- What the two declarations promise about a context of each kind. -/
structure Agreement (context : Context) (frame : InterruptContext) : Prop where
  cooperative : context.LoadedByName
  preemptive : ∀ place cpu after, Enters place cpu after → cpu.mem.Holds place frame.words →
    InterruptContext.ofCpu after = frame
  timer : ∀ cpu after stack handler back,
    exec (timerInterruptStub back) (cpu.interrupt stack handler kernelCs none) = some after →
      after.mem.Holds (after.regs .rdi) (InterruptContext.ofCpu cpu).words

/-- The structures and the assembly agree, but for the order of `rbp` and `rbx` in a `Context`. -/
theorem contexts_agree_iff (context : Context) (frame : InterruptContext) :
    Agreement context frame ↔ context.rbp = context.rbx := by
  rw [← context.loadedByName_iff]
  constructor
  · intro agreement
    exact agreement.cooperative
  · intro byName
    exact ⟨byName, fun _ _ _ enters holds => enters.loads holds, fun _ _ _ _ _ left => timer_context left⟩

def mixedContext : Context := { Context.empty with rbp := 1, rbx := 2 }

theorem contexts_mixed : ∃ saved cpu after, Resumes saved cpu after ∧ after.mem.Holds saved mixedContext.words ∧
    after.regs .rbp = 2 ∧ after.regs .rbx = 1 ∧ ¬ mixedContext.Loaded after := by
  obtain ⟨saved, cpu, after, resumes, holds⟩ := mixedContext.resumed
  have rbp : after.regs .rbp = 2 := (resumes.popped holds).1 .rbp (by decide)
  have rbx : after.regs .rbx = 1 := (resumes.popped holds).1 .rbx (by decide)
  refine ⟨saved, cpu, after, resumes, holds, rbp, rbx, ?_⟩
  intro loaded
  have one := loaded.rbp
  rw [rbp] at one
  exact absurd one (by decide)

end ElseOS.Arch
