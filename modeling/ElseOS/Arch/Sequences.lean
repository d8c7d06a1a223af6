import ElseOS.Arch.Assembly

/-! What each sequence of the assembly does to the code segment, the bases of `gs` and the
interrupt flag, and which part of the memory it leaves alone. -/

set_option autoImplicit false

namespace ElseOS.Arch

open Base (ByteMemory)
open Base.X86

variable {cpu final : Cpu}

/-! ## Entering -/

def checkGs (cpu : Cpu) (offset : UInt64) : Cpu :=
  let compared := cpu.compare (cpu.mem.load (cpu.rsp + offset) - 0x8)
  if cpu.mem.load (cpu.rsp + offset) = kernelCs then compared
  else { compared with gsBase := cpu.kernelGsBase, kernelGsBase := cpu.gsBase }

theorem exec_swapgsUnlessKernel (offset : UInt64) (rest : List Instr) (cpu : Cpu) :
    exec (swapgsUnlessKernel offset ++ rest) cpu = exec rest (checkGs cpu offset) := by
  have compared : exec (swapgsUnlessKernel offset ++ rest) cpu =
      exec (.je 1 :: .op .swapgs :: rest) (cpu.compare (cpu.mem.load (cpu.rsp + offset) - 0x8)) := exec_op _ _ _
  rw [compared, exec_je, zero_compare]
  unfold checkGs kernelCs
  by_cases isKernel : cpu.mem.load (cpu.rsp + offset) = 0x8
  · have none : cpu.mem.load (cpu.rsp + offset) - 0x8 = 0 := by grind
    rw [if_pos (decide_eq_true none), if_pos isKernel]
    rfl
  · have some : ¬ cpu.mem.load (cpu.rsp + offset) - 0x8 = 0 := fun none => isKernel (by grind)
    rw [decide_eq_false some, if_neg Bool.false_ne_true, if_neg isKernel]
    exact exec_op _ _ _

def swapUnless (kernel : Prop) [Decidable kernel] (mode : UInt64 × UInt64 × UInt64 × Bool) :
    UInt64 × UInt64 × UInt64 × Bool :=
  if kernel then mode else (mode.1, mode.2.2.1, mode.2.1, mode.2.2.2)

theorem mode_checkGs (cpu : Cpu) (offset : UInt64) :
    (checkGs cpu offset).mode = swapUnless (cpu.mem.load (cpu.rsp + offset) = kernelCs) cpu.mode := by
  have flag := interrupts_compare cpu (cpu.mem.load (cpu.rsp + offset) - 0x8)
  unfold checkGs swapUnless Cpu.mode
  split
  · rw [flag]
    rfl
  · unfold Cpu.interrupts Cpu.compare at flag ⊢
    rw [flag]

theorem regs_checkGs (cpu : Cpu) (offset : UInt64) : (checkGs cpu offset).regs = cpu.regs := by
  unfold checkGs
  split <;> rfl

theorem mem_checkGs (cpu : Cpu) (offset : UInt64) : (checkGs cpu offset).mem = cpu.mem := by
  unfold checkGs
  split <;> rfl

def wrapper (error : Bool) (back : UInt64) : List Instr :=
  if error then interruptWrapperErrorCode back else interruptWrapper back

def wrapperEnd (error : Bool) : List Instr := if error then interruptWrapperErrorCodeEnd else interruptWrapperEnd

/-- How far above the stack pointer the handler finds the code segment. -/
def csOffset (error : Bool) : UInt64 := if error then 16 else 8

theorem wrapper_call (cpu : Cpu) {op : Op} (argument : op = .movImm .rsi 0 ∨ op = .load .rsi .rsp 80)
    (offset back : UInt64) :
    let final := cpu.applyAll [.mov .rdi .rsp, .add .rdi offset, op, .mov .r12 .rsp, .and .rsp (-16), .call back]
    final.regs .r12 = cpu.rsp ∧ final.mem = cpu.mem.store ((cpu.rsp &&& -16) - 8) back := by
  rcases argument with rfl | rfl <;> exact ⟨rfl, rfl⟩

theorem exec_wrapper (error : Bool) (back : UInt64) (cpu : Cpu) :
    ∃ final, exec (wrapper error back) cpu = some final ∧ final.mode = (checkGs cpu (csOffset error)).mode ∧
      final.regs .r12 = cpu.rsp - 80 ∧ ByteMemory.Agree cpu.rsp (2 ^ 32) cpu.mem final.mem := by
  have rsp : (checkGs cpu (csOffset error)).rsp = cpu.rsp := congrFun (regs_checkGs cpu _) .rsp
  have agree := @agree_alignedCall wrapperRegs (by decide) (checkGs cpu (csOffset error)) back
  have stack := rsp_pushAll (checkGs cpu (csOffset error)) wrapperRegs
  rw [rsp] at stack
  rw [rsp, mem_checkGs] at agree
  have tail (op : Op) (argument : op = .movImm .rsi 0 ∨ op = .load .rsi .rsp 80) (offset : UInt64) :
      ∃ final, exec (swapgsUnlessKernel (csOffset error) ++ straight (pushes wrapperRegs ++
          [.mov .rdi .rsp, .add .rdi offset, op, .mov .r12 .rsp, .and .rsp (-16), .call back])) cpu = some final ∧
        final.mode = (checkGs cpu (csOffset error)).mode ∧ final.regs .r12 = cpu.rsp - 80 ∧
        ByteMemory.Agree cpu.rsp (2 ^ 32) cpu.mem final.mem := by
    have plain : .swapgs ∉ pushes wrapperRegs ++
        [.mov .rdi .rsp, .add .rdi offset, op, .mov .r12 .rsp, .and .rsp (-16), .call back] := by
      rcases argument with rfl | rfl <;> simp [pushes, wrapperRegs]
    obtain ⟨r12, mem⟩ := wrapper_call ((checkGs cpu (csOffset error)).pushAll wrapperRegs) argument offset back
    refine ⟨_, (exec_swapgsUnlessKernel _ _ _).trans (exec_straight_end _ _), mode_applyAll plain _, ?_, ?_⟩
    · rw [applyAll_append]
      exact r12.trans stack
    · rw [applyAll_append]
      exact mem ▸ agree
  cases error with
  | false => exact tail _ (.inl rfl) 80
  | true => exact tail _ (.inr rfl) 88

theorem exec_timerInterruptStub (back : UInt64) (cpu : Cpu) :
    ∃ final, exec (timerInterruptStub back) cpu = some final ∧ final.mode = (checkGs cpu 8).mode ∧
      ByteMemory.Agree cpu.rsp (2 ^ 32) cpu.mem final.mem := by
  have rsp : (checkGs cpu 8).rsp = cpu.rsp := congrFun (regs_checkGs cpu 8) .rsp
  have self : (cpu.rsp - cpu.rsp).toNat = 0 := by
    rw [UInt64.sub_self]
    rfl
  refine ⟨_, (exec_swapgsUnlessKernel _ _ _).trans (exec_straight_end _ _), mode_applyAll (by simp [pushes]) _, ?_⟩
  rw [applyAll_append]
  have saved := @agree_pushAll (checkGs cpu 8) cpu.rsp (2 ^ 32)
    [.rax, .rcx, .rdx, .rbx, .rbp, .rsi, .rdi, .r8, .r9, .r10, .r11, .r12, .r13, .r14, .r15]
    (by rw [rsp, self]; decide)
  have pushed := @distance_pushAll (checkGs cpu 8)
    [.rax, .rcx, .rdx, .rbx, .rbp, .rsi, .rdi, .r8, .r9, .r10, .r11, .r12, .r13, .r14, .r15] (by decide)
  rw [rsp] at pushed
  rw [mem_checkGs] at saved
  exact saved.trans (agree_push back (by rw [pushed]; decide))

/-! ## Leaving -/

theorem exec_resumePreemptive_append (stack : Reg) (more : List Instr) (cpu : Cpu) :
    exec (resumePreemptive stack ++ more) cpu = exec (resumePreemptive stack) cpu := by
  unfold resumePreemptive
  rw [List.append_assoc, List.append_assoc, exec_straight, exec_swapgsUnlessKernel, List.append_assoc, exec_straight,
    exec_swapgsUnlessKernel, List.singleton_append, exec_iretq, exec_iretq]

theorem exec_iret {ops : List Op} (plain : .swapgs ∉ ops) (mem : (cpu.applyAll ops).mem = cpu.mem) {slot : UInt64}
    (frame : (cpu.applyAll ops).rsp + 8 = slot) :
    ∃ final, exec (straight ops ++ swapgsUnlessKernel 8 ++ [.iretq]) cpu = some final ∧ final.mem = cpu.mem ∧
      final.cs = cpu.mem.load slot ∧ (final.gsBase, final.kernelGsBase) =
        if cpu.mem.load slot = kernelCs then (cpu.gsBase, cpu.kernelGsBase) else (cpu.kernelGsBase, cpu.gsBase) := by
  have mode := mode_applyAll plain cpu
  have checked := mode_checkGs (cpu.applyAll ops) 8
  rw [mem, frame, mode] at checked
  refine ⟨(checkGs (cpu.applyAll ops) 8).iretq, ?_, ?_, ?_, ?_⟩
  · rw [List.append_assoc, exec_straight, exec_swapgsUnlessKernel, exec_iretq]
  · exact (mem_checkGs _ _).trans mem
  · change (checkGs (cpu.applyAll ops) 8).mem.load ((checkGs (cpu.applyAll ops) 8).regs .rsp + 8) = _
    rw [mem_checkGs, regs_checkGs, mem]
    exact congrArg _ frame
  · have bases := congrArg (fun mode => (mode.2.1, mode.2.2.1)) checked
    refine bases.trans ?_
    unfold swapUnless
    split <;> rfl

theorem exec_wrapperEnd (error : Bool) {slot : UInt64} (base : cpu.regs .r12 = slot - csOffset error - 80) :
    ∃ final, exec (wrapperEnd error) cpu = some final ∧ final.mem = cpu.mem ∧
      final.cs = cpu.mem.load slot ∧ (final.gsBase, final.kernelGsBase) =
        if cpu.mem.load slot = kernelCs then (cpu.gsBase, cpu.kernelGsBase) else (cpu.kernelGsBase, cpu.gsBase) := by
  obtain ⟨rsp, mem⟩ := @rsp_mov_pops cpu .r12 wrapperRegs.reverse (by decide)
  rw [base] at rsp
  cases error with
  | false =>
    apply exec_iret (by simp [pops, wrapperRegs]) mem
    rw [rsp]
    simp only [csOffset, wrapperRegs, List.reverse_cons, List.reverse_nil, List.nil_append, List.length_append,
      List.length_cons, List.length_nil]
    grind
  | true =>
    apply exec_iret (by simp [pops, wrapperRegs])
    · rw [applyAll_append, (rsp_add _ 8).2, mem]
    · rw [applyAll_append, (rsp_add _ 8).1, rsp]
      simp only [csOffset, wrapperRegs, List.reverse_cons, List.reverse_nil, List.nil_append, List.length_append,
        List.length_cons, List.length_nil]
      grind

def contextCs : UInt64 := 128

theorem exec_resumePreemptive {ops : List Op} (plain : .swapgs ∉ ops) (mem : (cpu.applyAll ops).mem = cpu.mem)
    {stack : Reg} {slot : UInt64} (passed : (cpu.applyAll ops).regs stack = slot - contextCs) :
    ∃ final, exec (straight ops ++ resumePreemptive stack) cpu = some final ∧ final.mem = cpu.mem ∧
      final.cs = cpu.mem.load slot ∧ (final.gsBase, final.kernelGsBase) =
        if cpu.mem.load slot = kernelCs then (cpu.gsBase, cpu.kernelGsBase) else (cpu.kernelGsBase, cpu.gsBase) := by
  obtain ⟨rsp, sameMem⟩ := @rsp_mov_pops (cpu.applyAll ops) stack contextRegs (by decide)
  have code : straight ops ++ resumePreemptive stack =
      straight (ops ++ .mov .rsp stack :: pops contextRegs) ++ swapgsUnlessKernel 8 ++ [.iretq] := by
    unfold straight resumePreemptive straight
    rw [List.map_append, List.append_assoc, List.append_assoc, List.append_assoc]
  rw [code]
  apply exec_iret
  · rw [List.mem_append, not_or]
    exact ⟨plain, by simp [pops, contextRegs]⟩
  · rw [applyAll_append, sameMem, mem]
  · rw [applyAll_append, rsp, passed]
    simp only [contextCs, contextRegs, List.length_cons, List.length_nil]
    grind

theorem exec_resumeCooperative (stack : Reg) (cpu : Cpu) :
    ∃ final, exec (resumeCooperative stack) cpu = some final ∧ final.mem = cpu.mem ∧ final.mode = cpu.mode := by
  obtain ⟨_, mem⟩ := @rsp_mov_pops cpu stack calleeSaved (by decide)
  have mode := @mode_applyAll (.mov .rsp stack :: pops calleeSaved) (by simp [pops, calleeSaved]) cpu
  refine ⟨(cpu.applyAll (.mov .rsp stack :: pops calleeSaved)).ret, ?_, ?_, ?_⟩
  · rw [resumeCooperative, exec_straight, exec_ret]
  · rw [mem_ret, mem]
  · rw [mode_ret, mode]

theorem exec_enterUser {slot : UInt64} (passed : cpu.regs .rdi = slot - contextCs) :
    ∃ final, exec enterUser cpu = some final ∧ final.mem = cpu.mem ∧
      final.cs = cpu.mem.load slot ∧ (final.gsBase, final.kernelGsBase) =
        if cpu.mem.load slot = kernelCs then (cpu.gsBase, cpu.kernelGsBase) else (cpu.kernelGsBase, cpu.gsBase) :=
  @exec_resumePreemptive cpu [] List.not_mem_nil rfl .rdi slot passed

theorem exec_switchContextToPreemptiveEnd {slot : UInt64} (passed : cpu.regs .r9 = slot - contextCs) :
    ∃ final, exec switchContextToPreemptiveEnd cpu = some final ∧ final.mem = cpu.mem ∧
      final.cs = cpu.mem.load slot ∧ (final.gsBase, final.kernelGsBase) =
        if cpu.mem.load slot = kernelCs then (cpu.gsBase, cpu.kernelGsBase) else (cpu.kernelGsBase, cpu.gsBase) :=
  @exec_resumePreemptive cpu [.mov .rsp .r12, .mov .rdi .r9] (by simp) rfl .rdi slot passed

def timerMoves : List Op := [.mov .rbx .rax, .mov .rcx .rdx, .movByte .rax 0x20, .out, .cmp .rbx 0]

theorem timerMoves_spec (cpu : Cpu) : (cpu.applyAll timerMoves).zero = decide (cpu.regs .rax = 0) ∧
    (cpu.applyAll timerMoves).mem = cpu.mem ∧ (cpu.applyAll timerMoves).regs .rcx = cpu.regs .rdx := by
  refine ⟨?_, rfl, rfl⟩
  have compared : (cpu.applyAll timerMoves).zero = decide (cpu.regs .rax - 0 = 0) := zero_compare _ _
  rw [compared, UInt64.sub_zero]

theorem exec_timerEnd (cpu : Cpu) : exec timerInterruptStubEnd cpu =
    if cpu.regs .rax = 0 then exec (resumeCooperative .rcx) (cpu.applyAll timerMoves)
    else exec (resumePreemptive .rcx ++ resumeCooperative .rcx) (cpu.applyAll timerMoves) := by
  have code : timerInterruptStubEnd = straight timerMoves ++
      .je (resumePreemptive .rcx).length :: (resumePreemptive .rcx ++ resumeCooperative .rcx) := by
    unfold timerInterruptStubEnd
    rw [List.append_assoc, List.append_assoc]
    rfl
  rw [code, exec_straight, exec_je, (timerMoves_spec cpu).1, List.drop_left]
  by_cases cooperative : cpu.regs .rax = 0
  · rw [if_pos (decide_eq_true cooperative), if_pos cooperative]
  · rw [decide_eq_false cooperative, if_neg Bool.false_ne_true, if_neg cooperative]

theorem exec_timerCooperative (tag : cpu.regs .rax = 0) :
    ∃ final, exec timerInterruptStubEnd cpu = some final ∧ final.mem = cpu.mem ∧ final.mode = cpu.mode := by
  obtain ⟨final, left, mem, mode⟩ := exec_resumeCooperative .rcx (cpu.applyAll timerMoves)
  refine ⟨final, ?_, mem.trans (timerMoves_spec cpu).2.1, mode.trans (mode_applyAll (by simp [timerMoves]) cpu)⟩
  rw [exec_timerEnd, if_pos tag, left]

theorem exec_timerPreemptive (tag : cpu.regs .rax ≠ 0) {slot : UInt64} (passed : cpu.regs .rdx = slot - contextCs) :
    ∃ final, exec timerInterruptStubEnd cpu = some final ∧ final.mem = cpu.mem ∧
      final.cs = cpu.mem.load slot ∧ (final.gsBase, final.kernelGsBase) =
        if cpu.mem.load slot = kernelCs then (cpu.gsBase, cpu.kernelGsBase) else (cpu.kernelGsBase, cpu.gsBase) := by
  obtain ⟨_, mem, rcx⟩ := timerMoves_spec cpu
  obtain ⟨final, left, rest⟩ :=
    @exec_resumePreemptive cpu timerMoves (by simp [timerMoves]) mem .rcx slot (rcx.trans passed)
  refine ⟨final, ?_, rest⟩
  rw [exec_timerEnd, if_neg tag, exec_resumePreemptive_append, ← left, exec_straight]

theorem exec_switch {code : List Instr} (isSwitch : code = switchContext ∨ code = switchContextToCooperative)
    (cpu : Cpu) :
    ∃ final, exec code cpu = some final ∧ final.mode = cpu.mode := by
  rcases isSwitch with rfl | rfl
  · obtain ⟨final, left, _, mode⟩ := exec_resumeCooperative .rdi
      (cpu.applyAll (pushes [.rbp, .rbx, .r12, .r13, .r14, .r15] ++ [.mov .rax .rsp]))
    refine ⟨final, ?_, mode.trans (mode_applyAll (by simp [pushes]) cpu)⟩
    rw [switchContext, exec_straight, left]
  · obtain ⟨final, left, _, mode⟩ := exec_resumeCooperative .rdi cpu
    exact ⟨final, left, mode⟩

theorem mode_switchContextToPreemptive {back : UInt64} (left : exec (switchContextToPreemptive back) cpu = some final) :
    final.mode = cpu.mode := by
  rw [switchContextToPreemptive, exec_straight_end] at left
  obtain rfl := Option.some.inj left
  exact mode_applyAll (by simp [pushes]) cpu

theorem exec_syscallEntry (back : UInt64) (cpu : Cpu) :
    ∃ final, exec (syscallEntry back) cpu = some final ∧
      final.mode = (cpu.cs, cpu.kernelGsBase, cpu.gsBase, cpu.interrupts) := by
  have swapped : (Op.swapgs.apply cpu).mode = (cpu.cs, cpu.kernelGsBase, cpu.gsBase, cpu.interrupts) := rfl
  have plain : .swapgs ∉ [.storeGs 8 .rsp, .loadGs .rsp 0] ++ pushes syscallRegs ++
      [.loadGs .rbx 8, .push .rbx, .mov .rcx .r10, .mov .rbp .rsp, .and .rsp (-16), .sub .rsp 8, .push .rax,
        .call back] := by simp [pushes, syscallRegs]
  refine ⟨_, (exec_op .swapgs _ cpu).trans (exec_straight_end _ _), ?_⟩
  rw [← swapped]
  exact mode_applyAll plain _

def restoredRegs : List Reg := [.rcx, .rdx, .rbx, .rbp, .rsi, .rdi, .r8, .r9, .r10, .r11, .r12, .r13, .r14, .r15]

def checkRip : List Op :=
  [.mov .rsp .rbp, .pop .rbx, .storeGs 8 .rbx, .add .rsp 8, .load .r11 .rsp 0, .shr .r11 47, .test .r11 .r11]

theorem exec_syscallExit_eq (cpu : Cpu) : exec syscallExit cpu =
    if (cpu.applyAll checkRip).zero then
      some ((((cpu.applyAll checkRip).popAll restoredRegs).applyAll [.loadGs .rsp 8, .swapgs]).sysretq userCs)
    else none := by
  have code : syscallExit = straight checkRip ++
      .jnzHalt :: (straight (pops restoredRegs ++ [.loadGs .rsp 8, .swapgs]) ++ [.sysretq userCs]) := rfl
  rw [code, exec_straight, exec_jnzHalt, exec_straight, exec_sysretq, applyAll_append]
  rfl

theorem sysretq_spec (cpu : Cpu) :
    ((cpu.applyAll [.loadGs .rsp 8, .swapgs]).sysretq userCs).cs = userCs ∧
      ((cpu.applyAll [.loadGs .rsp 8, .swapgs]).sysretq userCs).gsBase = cpu.mode.2.2.1 ∧
      ((cpu.applyAll [.loadGs .rsp 8, .swapgs]).sysretq userCs).kernelGsBase = cpu.mode.2.1 := ⟨rfl, rfl, rfl⟩

theorem exec_syscallExit (left : exec syscallExit cpu = some final) :
    final.cs = userCs ∧ (final.gsBase, final.kernelGsBase) = (cpu.kernelGsBase, cpu.gsBase) := by
  have checked := @mode_applyAll checkRip (by simp [checkRip]) cpu
  have popped := @mode_applyAll (pops restoredRegs) (by simp [pops, restoredRegs]) (cpu.applyAll checkRip)
  rw [exec_syscallExit_eq] at left
  split at left
  · obtain ⟨cs, gs, kernelGs⟩ := sysretq_spec ((cpu.applyAll checkRip).popAll restoredRegs)
    rw [← Option.some.inj left, cs, gs, kernelGs, Cpu.popAll, popped, checked]
    exact ⟨rfl, rfl⟩
  · cases left

end ElseOS.Arch
