import ElseOS.Base.X86

/-! The assembly of the kernel: `syscall/entry.s`, `task/switch.s` and the wrappers of
`arch/x86_64/idt.rs`.

A sequence is cut where it calls a Rust function; the argument `back` is the address behind
the call. -/

set_option autoImplicit false

namespace ElseOS.Arch

open Base (ByteMemory)
open Base.X86

def kernelCs : UInt64 := 0x8

def userCs : UInt64 := 0x23

/-- Compares the code segment in the interrupt frame with the kernel's. -/
def swapgsUnlessKernel (offset : UInt64) : List Instr := [.op (.cmpMem .rsp offset 0x8), .je 1, .op .swapgs]

/-! ## `syscall/entry.s` -/

def syscallRegs : List Reg := [.r15, .r14, .r13, .r12, .r11, .r10, .r9, .r8, .rdi, .rsi, .rbp, .rbx, .rdx, .rcx, .rax]

def syscallEntry (back : UInt64) : List Instr :=
  straight ([.swapgs, .storeGs 8 .rsp, .loadGs .rsp 0] ++ pushes syscallRegs ++
    [.loadGs .rbx 8, .push .rbx, .mov .rcx .r10, .mov .rbp .rsp, .and .rsp (-16), .sub .rsp 8, .push .rax, .call back])

def syscallExit : List Instr :=
  straight [.mov .rsp .rbp, .pop .rbx, .storeGs 8 .rbx, .add .rsp 8, .load .r11 .rsp 0, .shr .r11 47,
    .test .r11 .r11] ++
  [.jnzHalt] ++
  straight (pops [.rcx, .rdx, .rbx, .rbp, .rsi, .rdi, .r8, .r9, .r10, .r11, .r12, .r13, .r14, .r15] ++
    [.loadGs .rsp 8, .swapgs]) ++
  [.sysretq userCs]

/-! ## `task/switch.s` -/

/-- `Context`, in the order of `pop`. -/
def calleeSaved : List Reg := [.r15, .r14, .r13, .r12, .rbx, .rbp]

def contextRegs : List Reg :=
  [.r15, .r14, .r13, .r12, .r11, .r10, .r9, .r8, .rdi, .rsi, .rbp, .rbx, .rdx, .rcx, .rax]

/-- The end of `switch_context`, `switch_context_to_cooperative` and `.L_resume_cooperative`: a stack that
`switch_context` left, from the register it is passed in. -/
def resumeCooperative (stack : Reg) : List Instr := straight (.mov .rsp stack :: pops calleeSaved) ++ [.ret]

def switchContext : List Instr :=
  straight (pushes [.rbp, .rbx, .r12, .r13, .r14, .r15] ++ [.mov .rax .rsp]) ++ resumeCooperative .rdi

def switchContextToCooperative : List Instr := resumeCooperative .rdi

/-- The end of `enter_user` and of the timer stub: an interrupt context, from the register it is passed in. -/
def resumePreemptive (stack : Reg) : List Instr :=
  straight (.mov .rsp stack :: pops contextRegs) ++ swapgsUnlessKernel 8 ++ [.iretq]

def enterUser : List Instr := resumePreemptive .rdi

def switchContextToPreemptive (back : UInt64) : List Instr :=
  straight (pushes [.rbp, .rbx, .r12, .r13, .r14, .r15] ++
    [.mov .r8 .rsp, .mov .r9 .rdi, .mov .rdi .r8, .mov .r12 .rsp, .and .rsp (-16), .call back])

def switchContextToPreemptiveEnd : List Instr := straight [.mov .rsp .r12, .mov .rdi .r9] ++ enterUser

def timerInterruptStub (back : UInt64) : List Instr :=
  swapgsUnlessKernel 8 ++
  straight (pushes [.rax, .rcx, .rdx, .rbx, .rbp, .rsi, .rdi, .r8, .r9, .r10, .r11, .r12, .r13, .r14, .r15] ++
    [.mov .rdi .rsp, .call back])

/-- Behind the call of `timer_tick_handler`, which returns the tag in `rax` and the stack in `rdx`. -/
def timerInterruptStubEnd : List Instr :=
  straight [.mov .rbx .rax, .mov .rcx .rdx, .movByte .rax 0x20, .out, .cmp .rbx 0] ++
  [.je (resumePreemptive .rcx).length] ++ resumePreemptive .rcx ++ resumeCooperative .rcx

/-! ## `arch/x86_64/idt.rs` -/

def wrapperRegs : List Reg := [.r12, .rax, .rcx, .rdx, .rsi, .rdi, .r8, .r9, .r10, .r11]

def interruptWrapper (back : UInt64) : List Instr :=
  swapgsUnlessKernel 8 ++
  straight (pushes wrapperRegs ++
    [.mov .rdi .rsp, .add .rdi 80, .movImm .rsi 0, .mov .r12 .rsp, .and .rsp (-16), .call back])

def interruptWrapperEnd : List Instr :=
  straight (.mov .rsp .r12 :: pops wrapperRegs.reverse) ++ swapgsUnlessKernel 8 ++ [.iretq]

def interruptWrapperErrorCode (back : UInt64) : List Instr :=
  swapgsUnlessKernel 16 ++
  straight (pushes wrapperRegs ++
    [.mov .rdi .rsp, .add .rdi 88, .load .rsi .rsp 80, .mov .r12 .rsp, .and .rsp (-16), .call back])

def interruptWrapperErrorCodeEnd : List Instr :=
  straight (.mov .rsp .r12 :: pops wrapperRegs.reverse ++ [.add .rsp 8]) ++ swapgsUnlessKernel 8 ++ [.iretq]

end ElseOS.Arch
