import ElseOS.Arch.Sequences

/-! Every way into the kernel and out of it.

The processor runs user code, Rust code of the kernel or one of the assembly sequences,
instruction by instruction; an interrupt can come between any two instructions while the
interrupt flag is set. What runs next after a switch is any thread that was saved. -/

set_option autoImplicit false

namespace ElseOS.Arch

open Base (ByteMemory)
open Base.X86

/-- What the kernel code that runs was started by. An interrupt handler knows where its frame has the
code segment. -/
inductive Origin where
  /-- Boot, and the threads of `new_kernel_thread`. -/
  | thread
  /-- A thread of `new_user_thread`, up to `enter_user`. -/
  | launch
  | syscall
  | trap (slot : UInt64) (error : Bool)
  | timer (slot : UInt64)
  /-- `after_switch`, called from `switch_context_to_preemptive`. -/
  | switching
  deriving DecidableEq

/-- Rust code of the kernel. `sections` is what each `without_interrupts` around it found in the interrupt
flag, the innermost first; `halting` says that it is between `enable_and_hlt` and `disable`. -/
structure Activation where
  origin : Origin
  sections : List Bool
  halting : Bool
  /-- The assembly that was interrupted. -/
  resume : List (List Instr)

def Activation.Open (activation : Activation) : Prop :=
  activation.halting = true ∨ activation.origin = .thread ∧ activation.sections = []

inductive Saved where
  | cooperative (stack : List Activation)
  | preemptive (stack : List Activation) (slot : UInt64) (resume : List (List Instr))

def selector : List Activation → UInt64
  | [] => userCs
  | _ :: _ => kernelCs

def frames : List Activation → List (UInt64 × UInt64)
  | [] => []
  | activation :: rest => match activation.origin with
    | .trap slot _ => (slot, selector rest) :: frames rest
    | .timer slot => (slot, selector rest) :: frames rest
    | _ => frames rest

def Saved.frames : Saved → List (UInt64 × UInt64)
  | .cooperative stack => Arch.frames stack
  | .preemptive stack slot _ => (slot, selector stack) :: Arch.frames stack

/-- `running` is the kernel code in progress, the innermost first, and empty while user code runs; `code` is
the assembly in progress. -/
structure State where
  cpu : Cpu
  running : List Activation
  saved : List Saved
  code : List (List Instr)

def State.live (state : State) : List (UInt64 × UInt64) := frames state.running ++ state.saved.flatMap Saved.frames

def Framed (mem : ByteMemory) (live : List (UInt64 × UInt64)) : Prop := ∀ frame ∈ live, mem.load frame.1 = frame.2

/-- The stores of the sequence fall on its own stack and on the processor's data, not on frames. -/
def Spares (code : List Instr) (cpu : Cpu) (live : List (UInt64 × UInt64)) : Prop :=
  ∀ final, exec code cpu = some final → Framed final.mem live

/-- What compiled code does besides switching interrupts on and off: the frames are not its to write. -/
structure Undisturbed (live : List (UInt64 × UInt64)) (before after : Cpu) : Prop where
  mode : after.mode = before.mode
  framed : Framed after.mem live

def unmask (cpu : Cpu) : Cpu := { cpu with rflags := cpu.rflags ||| interruptFlag }

inductive Move : State → State → Prop where
  | user {state : State} {after : Cpu} : state.running = [] → state.code = [] →
      Undisturbed state.live state.cpu after → Move state { state with cpu := after }
  | rust {state : State} {after : Cpu} : state.running ≠ [] → state.code = [] →
      Undisturbed state.live state.cpu after → Move state { state with cpu := after }
  /-- `without_interrupts`, at its start. -/
  | enter {state : State} {top : Activation} {rest : List Activation} : state.running = top :: rest → state.code = [] →
      top.halting = false →
      Move state { state with
        cpu := state.cpu.mask
        running := { top with sections := state.cpu.interrupts :: top.sections } :: rest }
  /-- `without_interrupts`, at its end. -/
  | leave {state : State} {top : Activation} {rest : List Activation} {found : Bool} {outer : List Bool} :
      state.running = top :: rest → state.code = [] → top.halting = false → top.sections = found :: outer →
      Move state { state with
        cpu := if found then unmask state.cpu else state.cpu
        running := { top with sections := outer } :: rest }
  /-- `enable_and_hlt`, which stands inside `without_interrupts`. -/
  | halt {state : State} {top : Activation} {rest : List Activation} : state.running = top :: rest → state.code = [] →
      top.halting = false → top.sections ≠ [] →
      Move state { state with cpu := unmask state.cpu, running := { top with halting := true } :: rest }
  /-- `disable`, behind it. -/
  | wake {state : State} {top : Activation} {rest : List Activation} : state.running = top :: rest → state.code = [] →
      top.halting = true →
      Move state { state with cpu := state.cpu.mask, running := { top with halting := false } :: rest }
  /-- `interrupts_enable`, in the kernel's own threads. -/
  | enable {state : State} {top : Activation} {rest : List Activation} : state.running = top :: rest → state.code = [] →
      top.halting = false → top.origin = .thread → top.sections = [] →
      Move state { state with cpu := unmask state.cpu }
  /-- A new thread. -/
  | spawn {state : State} {origin : Origin} : state.running ≠ [] → state.code = [] →
      origin = .thread ∨ origin = .launch →
      Move state { state with saved := .cooperative [⟨origin, [], false, []⟩] :: state.saved }
  /-- One instruction of the assembly. -/
  | step {state : State} {code rest : List Instr} {later : List (List Instr)} {after : Cpu} :
      state.code = code :: later → advance code state.cpu = .next rest after →
      Move state { state with cpu := after, code := rest :: later }
  /-- The last one. -/
  | done {state : State} {code : List Instr} {later : List (List Instr)} {after : Cpu} :
      state.code = code :: later → advance code state.cpu = .left after →
      Move state { state with cpu := after, code := later }
  /-- The instruction `syscall`. -/
  | syscall {state : State} (entry back : UInt64) : state.running = [] → state.code = [] →
      Spares (syscallEntry back) (state.cpu.syscall entry kernelCs) state.live →
      Move state { state with
        cpu := state.cpu.syscall entry kernelCs
        running := [⟨.syscall, [], false, []⟩]
        code := [syscallEntry back] }
  /-- An interrupt of a device, or an exception in user code. -/
  | trap {state : State} (stack handler back : UInt64) (error : Option UInt64) :
      state.cpu.interrupts = true ∧ error = none ∨ state.running = [] ∧ state.code = [] →
      Spares (wrapper error.isSome back) (state.cpu.interrupt stack handler kernelCs error) state.live →
      Move state { state with
        cpu := state.cpu.interrupt stack handler kernelCs error
        running := ⟨.trap ((state.cpu.interrupt stack handler kernelCs error).rsp + csOffset error.isSome) error.isSome,
          [], false, state.code⟩ :: state.running
        code := [wrapper error.isSome back] }
  | timer {state : State} (stack handler back : UInt64) : state.cpu.interrupts = true →
      Spares (timerInterruptStub back) (state.cpu.interrupt stack handler kernelCs none) state.live →
      Move state { state with
        cpu := state.cpu.interrupt stack handler kernelCs none
        running := ⟨.timer ((state.cpu.interrupt stack handler kernelCs none).rsp + 8), [], false, state.code⟩ ::
          state.running
        code := [timerInterruptStub back] }
  /-- `syscall_handler` returns. -/
  | syscallReturn {state : State} : state.running = [⟨.syscall, [], false, []⟩] → state.code = [] →
      Spares syscallExit state.cpu (state.saved.flatMap Saved.frames) →
      Move state { state with running := [], code := [syscallExit] }
  /-- A handler returns to its wrapper, whose `r12` it has kept. -/
  | trapReturn {state : State} {slot : UInt64} {error : Bool} {resume : List (List Instr)} {rest : List Activation} :
      state.running = ⟨.trap slot error, [], false, resume⟩ :: rest → state.code = [] →
      state.cpu.regs .r12 = slot - csOffset error - 80 →
      Move state { state with running := rest, code := wrapperEnd error :: resume }
  /-- `timer_tick_handler` returns a cooperative thread; the interrupted code is saved, or lost. -/
  | timerCooperative {state : State} {slot : UInt64} {resume : List (List Instr)} {rest stack : List Activation}
      {left : List Saved} :
      state.running = ⟨.timer slot, [], false, resume⟩ :: rest → state.code = [] → state.cpu.regs .rax = 0 →
      .cooperative stack ∈ state.saved → (∀ saved ∈ left, saved ∈ .preemptive rest slot resume :: state.saved) →
      Move state { state with running := stack, saved := left, code := [timerInterruptStubEnd] }
  /-- Or a preempted one, perhaps the same. -/
  | timerPreemptive {state : State} {slot next : UInt64} {resume further : List (List Instr)}
      {rest stack : List Activation} {left : List Saved} :
      state.running = ⟨.timer slot, [], false, resume⟩ :: rest → state.code = [] → state.cpu.regs .rax ≠ 0 →
      state.cpu.regs .rdx = next - contextCs →
      .preemptive stack next further ∈ .preemptive rest slot resume :: state.saved →
      (∀ saved ∈ left, saved ∈ .preemptive rest slot resume :: state.saved) →
      Move state { state with running := stack, saved := left, code := timerInterruptStubEnd :: further }
  /-- `switch_context`, or `switch_context_to_cooperative` from a thread that exits; called inside
  `without_interrupts`. -/
  | switch {state : State} {top : Activation} {rest stack : List Activation} {left : List Saved} {code : List Instr} :
      state.running = top :: rest → state.code = [] → ¬ top.Open →
      code = switchContext ∨ code = switchContextToCooperative → Spares code state.cpu state.live →
      .cooperative stack ∈ state.saved → (∀ saved ∈ left, saved ∈ .cooperative (top :: rest) :: state.saved) →
      Move state { state with running := stack, saved := left, code := [code] }
  /-- `switch_context_to_preemptive`, up to the call. -/
  | switchPreemptive {state : State} {top : Activation} {rest : List Activation} {left : List Saved} (back : UInt64) :
      state.running = top :: rest → state.code = [] → ¬ top.Open →
      Spares (switchContextToPreemptive back) state.cpu state.live →
      (∀ saved ∈ left, saved ∈ .cooperative (top :: rest) :: state.saved) →
      Move state { state with
        running := [⟨.switching, [], false, []⟩]
        saved := left
        code := [switchContextToPreemptive back] }
  /-- `after_switch` returns, with the new stack still in `r9`. -/
  | switchEnd {state : State} {stack : List Activation} {next : UInt64} {further : List (List Instr)}
      {left : List Saved} :
      state.running = [⟨.switching, [], false, []⟩] → state.code = [] → state.cpu.regs .r9 = next - contextCs →
      .preemptive stack next further ∈ state.saved → (∀ saved ∈ left, saved ∈ state.saved) →
      Move state { state with running := stack, saved := left, code := switchContextToPreemptiveEnd :: further }
  /-- Or it has used `r9`, which it need not preserve, and there happens to be some frame. -/
  | switchStray {state : State} {stack : List Activation} {slot : UInt64} :
      state.running = [⟨.switching, [], false, []⟩] → state.code = [] → state.cpu.regs .r9 = slot - contextCs →
      state.cpu.mem.load slot = selector stack → stack = [] ∨ stack = [⟨.thread, [], false, []⟩] →
      Move state { state with running := stack, code := [switchContextToPreemptiveEnd] }
  /-- `user_trampoline_rust` enters user code through a frame that it has made. -/
  | launch {state : State} {slot : UInt64} : state.running = [⟨.launch, [], false, []⟩] → state.code = [] →
      state.cpu.regs .rdi = slot - contextCs → state.cpu.mem.load slot = userCs →
      Move state { state with running := [], code := [enterUser] }

end ElseOS.Arch
