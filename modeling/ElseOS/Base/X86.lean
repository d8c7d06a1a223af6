import ElseOS.Base.ByteMemory
import ElseOS.Base.Bytes
import Mathlib.Logic.Function.Basic

/-! A part of the x86-64 architecture: what the entry and exit stubs of a kernel are made of.

Of the flags only the zero flag and the interrupt flag are modelled; a comparison leaves the
others as they are. Code is a list, and jumps go forward over a number of instructions. -/

set_option autoImplicit false

namespace ElseOS.Base.X86

inductive Reg where
  | rax | rbx | rcx | rdx | rsi | rdi | rbp | rsp | r8 | r9 | r10 | r11 | r12 | r13 | r14 | r15
  deriving DecidableEq, Repr

structure Cpu where
  regs : Reg → UInt64
  rip : UInt64
  cs : UInt64
  ss : UInt64
  rflags : UInt64
  gsBase : UInt64
  /-- `IA32_KERNEL_GS_BASE`, which `swapgs` exchanges with the base in use. -/
  kernelGsBase : UInt64
  mem : ByteMemory

def zeroFlag : UInt64 := 0x40
def interruptFlag : UInt64 := 0x200

namespace Cpu

variable (cpu : Cpu)

def rsp : UInt64 := cpu.regs .rsp

def zero : Bool := cpu.rflags &&& zeroFlag != 0

def interrupts : Bool := cpu.rflags &&& interruptFlag != 0

def set (reg : Reg) (value : UInt64) : Cpu := { cpu with regs := Function.update cpu.regs reg value }

def push (value : UInt64) : Cpu := { cpu.set .rsp (cpu.rsp - 8) with mem := cpu.mem.store (cpu.rsp - 8) value }

def pop (dst : Reg) : Cpu := (cpu.set .rsp (cpu.rsp + 8)).set dst (cpu.mem.load cpu.rsp)

def compare (result : UInt64) : Cpu :=
  { cpu with rflags := if result = 0 then cpu.rflags ||| zeroFlag else cpu.rflags &&& ~~~zeroFlag }

def mask : Cpu := { cpu with rflags := cpu.rflags &&& ~~~interruptFlag }

def ret : Cpu := { cpu.set .rsp (cpu.rsp + 8) with rip := cpu.mem.load cpu.rsp }

def iretq : Cpu :=
  { cpu.set .rsp (cpu.mem.load (cpu.rsp + 24)) with
    rip := cpu.mem.load cpu.rsp
    cs := cpu.mem.load (cpu.rsp + 8)
    rflags := cpu.mem.load (cpu.rsp + 16)
    ss := cpu.mem.load (cpu.rsp + 32) }

/-- The selector of the code segment comes from the model-specific register `STAR`. -/
def sysretq (cs : UInt64) : Cpu := { cpu with rip := cpu.regs .rcx, rflags := cpu.regs .r11, cs := cs }

/-- The instruction that enters the kernel; interrupts are in the mask of flags to be cleared. -/
def syscall (entry cs : UInt64) : Cpu :=
  { (cpu.set .rcx cpu.rip).set .r11 cpu.rflags with
    rip := entry, cs := cs, rflags := cpu.rflags &&& ~~~interruptFlag }

/-- An interrupt gate: on the given stack, aligned, the five words of the frame and the error code,
if there is one. -/
def interrupt (stack handler cs : UInt64) (error : Option UInt64) : Cpu :=
  let framed := ((((cpu.set .rsp (stack &&& -16)).push cpu.ss).push cpu.rsp).push cpu.rflags).push cpu.cs
  let entered := match error with
    | none => framed.push cpu.rip
    | some code => (framed.push cpu.rip).push code
  { entered with rip := handler, cs := cs, rflags := cpu.rflags &&& ~~~interruptFlag }

end Cpu

inductive Op where
  | push (src : Reg)
  | pop (dst : Reg)
  | mov (dst src : Reg)
  | movImm (dst : Reg) (value : UInt64)
  /-- To the low byte of the register. -/
  | movByte (dst : Reg) (value : UInt64)
  | load (dst base : Reg) (offset : UInt64)
  | loadGs (dst : Reg) (offset : UInt64)
  | storeGs (offset : UInt64) (src : Reg)
  | and (dst : Reg) (value : UInt64)
  | add (dst : Reg) (value : UInt64)
  | sub (dst : Reg) (value : UInt64)
  | shr (dst : Reg) (count : UInt64)
  | test (first second : Reg)
  | cmp (first : Reg) (value : UInt64)
  | cmpMem (base : Reg) (offset value : UInt64)
  | out
  | swapgs
  /-- A call, up to the return address. -/
  | call (back : UInt64)
  deriving DecidableEq, Repr

inductive Instr where
  | op (op : Op)
  | je (past : Nat)
  /-- To a loop that never ends. -/
  | jnzHalt
  | ret
  | iretq
  | sysretq (cs : UInt64)
  deriving DecidableEq, Repr

def Op.apply (cpu : Cpu) : Op → Cpu
  | .push src => cpu.push (cpu.regs src)
  | .pop dst => cpu.pop dst
  | .mov dst src => cpu.set dst (cpu.regs src)
  | .movImm dst value => cpu.set dst value
  | .movByte dst value => cpu.set dst (cpu.regs dst &&& ~~~0xFF ||| value)
  | .load dst base offset => cpu.set dst (cpu.mem.load (cpu.regs base + offset))
  | .loadGs dst offset => cpu.set dst (cpu.mem.load (cpu.gsBase + offset))
  | .storeGs offset src => { cpu with mem := cpu.mem.store (cpu.gsBase + offset) (cpu.regs src) }
  | .and dst value => (cpu.set dst (cpu.regs dst &&& value)).compare (cpu.regs dst &&& value)
  | .add dst value => (cpu.set dst (cpu.regs dst + value)).compare (cpu.regs dst + value)
  | .sub dst value => (cpu.set dst (cpu.regs dst - value)).compare (cpu.regs dst - value)
  | .shr dst count => (cpu.set dst (cpu.regs dst >>> count)).compare (cpu.regs dst >>> count)
  | .test first second => cpu.compare (cpu.regs first &&& cpu.regs second)
  | .cmp first value => cpu.compare (cpu.regs first - value)
  | .cmpMem base offset value => cpu.compare (cpu.mem.load (cpu.regs base + offset) - value)
  | .out => cpu
  | .swapgs => { cpu with gsBase := cpu.kernelGsBase, kernelGsBase := cpu.gsBase }
  | .call back => cpu.push back

/-! ## Running code -/

inductive Flow where
  | next (code : List Instr) (cpu : Cpu)
  | left (cpu : Cpu)
  | halted

def advance : List Instr → Cpu → Flow
  | [], cpu => .left cpu
  | .op op :: rest, cpu => .next rest (op.apply cpu)
  | .je past :: rest, cpu => .next (if cpu.zero then rest.drop past else rest) cpu
  | .jnzHalt :: rest, cpu => if cpu.zero then .next rest cpu else .halted
  | .ret :: _, cpu => .left cpu.ret
  | .iretq :: _, cpu => .left cpu.iretq
  | .sysretq cs :: _, cpu => .left (cpu.sysretq cs)

theorem advance_shorter {code rest : List Instr} {cpu after : Cpu} (step : advance code cpu = .next rest after) :
    rest.length < code.length := by
  cases code with
  | nil => cases step
  | cons instr others =>
    rw [List.length_cons]
    cases instr with
    | op op =>
      cases step
      exact Nat.lt_succ_self _
    | je past =>
      cases step
      split
      · rw [List.length_drop]
        omega
      · exact Nat.lt_succ_self _
    | jnzHalt =>
      by_cases zero : cpu.zero = true
      · rw [advance, if_pos zero] at step
        cases step
        exact Nat.lt_succ_self _
      · rw [advance, if_neg zero] at step
        cases step
    | ret => cases step
    | iretq => cases step
    | sysretq cs => cases step

def exec (code : List Instr) (cpu : Cpu) : Option Cpu :=
  match _step : advance code cpu with
  | .next rest after => exec rest after
  | .left after => some after
  | .halted => none
termination_by code.length
decreasing_by exact advance_shorter _step

variable {code rest : List Instr} {cpu after : Cpu}

theorem exec_next (step : advance code cpu = .next rest after) : exec code cpu = exec rest after := by
  rw [exec]
  split <;> simp_all

theorem exec_left (step : advance code cpu = .left after) : exec code cpu = some after := by
  rw [exec]
  split <;> simp_all

theorem exec_halted (step : advance code cpu = .halted) : exec code cpu = none := by
  rw [exec]
  split <;> simp_all

theorem exec_nil (cpu : Cpu) : exec [] cpu = some cpu := exec_left rfl

theorem exec_op (op : Op) (rest : List Instr) (cpu : Cpu) : exec (.op op :: rest) cpu = exec rest (op.apply cpu) :=
  exec_next rfl

theorem exec_je (past : Nat) (rest : List Instr) (cpu : Cpu) :
    exec (.je past :: rest) cpu = exec (if cpu.zero then rest.drop past else rest) cpu := exec_next rfl

theorem exec_jnzHalt (rest : List Instr) (cpu : Cpu) :
    exec (.jnzHalt :: rest) cpu = if cpu.zero then exec rest cpu else none := by
  by_cases zero : cpu.zero = true
  · rw [if_pos zero]
    exact exec_next (if_pos zero)
  · rw [if_neg zero]
    exact exec_halted (if_neg zero)

theorem exec_ret (rest : List Instr) (cpu : Cpu) : exec (.ret :: rest) cpu = some cpu.ret := exec_left rfl

theorem exec_iretq (rest : List Instr) (cpu : Cpu) : exec (.iretq :: rest) cpu = some cpu.iretq := exec_left rfl

theorem exec_sysretq (cs : UInt64) (rest : List Instr) (cpu : Cpu) :
    exec (.sysretq cs :: rest) cpu = some (cpu.sysretq cs) := exec_left rfl

/-! ## Flags -/

theorem interrupts_compare (cpu : Cpu) (result : UInt64) : (cpu.compare result).interrupts = cpu.interrupts := by
  have kept (flags : UInt64) : (flags ||| zeroFlag) &&& interruptFlag = flags &&& interruptFlag ∧
      (flags &&& ~~~zeroFlag) &&& interruptFlag = flags &&& interruptFlag := by
    constructor
    · apply UInt64.toNat_inj.mp
      rw [UInt64.toNat_and, UInt64.toNat_or, UInt64.toNat_and, Nat.and_or_distrib_right]
      exact Nat.or_zero _
    · rw [UInt64.and_assoc]
      rfl
  unfold Cpu.interrupts Cpu.compare
  dsimp only
  split
  · rw [(kept cpu.rflags).1]
  · rw [(kept cpu.rflags).2]

theorem zero_compare (cpu : Cpu) (result : UInt64) : (cpu.compare result).zero = decide (result = 0) := by
  unfold Cpu.zero Cpu.compare
  dsimp only
  split
  next isZero =>
    have present : (cpu.rflags ||| zeroFlag) &&& zeroFlag = zeroFlag := by
      apply UInt64.toNat_inj.mp
      rw [UInt64.toNat_and, UInt64.toNat_or]
      apply Nat.eq_of_testBit_eq
      intro i
      rw [Nat.testBit_and, Nat.testBit_or]
      cases cpu.rflags.toNat.testBit i <;> simp
    rw [present, decide_eq_true isZero]
    rfl
  next notZero =>
    have absent : (cpu.rflags &&& ~~~zeroFlag) &&& zeroFlag = 0 := by
      rw [UInt64.and_assoc]
      exact UInt64.and_zero
    rw [absent, decide_eq_false notZero]
    rfl

theorem interrupts_masked (flags : UInt64) : (flags &&& ~~~interruptFlag &&& interruptFlag != 0) = false := by
  have absent : (flags &&& ~~~interruptFlag) &&& interruptFlag = 0 := by
    rw [UInt64.and_assoc]
    exact UInt64.and_zero
  rw [absent]
  rfl

/-- No instruction that goes on with the next one changes the interrupt flag. -/
theorem Op.interrupts_apply (op : Op) (cpu : Cpu) : (op.apply cpu).interrupts = cpu.interrupts := by
  cases op with
  | and dst value => exact interrupts_compare _ _
  | add dst value => exact interrupts_compare _ _
  | sub dst value => exact interrupts_compare _ _
  | shr dst count => exact interrupts_compare _ _
  | test first second => exact interrupts_compare _ _
  | cmp first value => exact interrupts_compare _ _
  | cmpMem base offset value => exact interrupts_compare _ _
  | _ => rfl

theorem interrupts_mask (cpu : Cpu) : cpu.mask.interrupts = false := interrupts_masked cpu.rflags

theorem interrupts_advance (taken : advance code cpu = .next rest after) :
    after.interrupts = cpu.interrupts := by
  cases code with
  | nil => cases taken
  | cons instr code =>
    cases instr with
    | op op =>
      cases taken
      exact op.interrupts_apply cpu
    | je past =>
      cases taken
      rfl
    | jnzHalt =>
      by_cases zero : cpu.zero = true
      · rw [advance, if_pos zero] at taken
        cases taken
        rfl
      · rw [advance, if_neg zero] at taken
        cases taken
    | ret => cases taken
    | iretq => cases taken
    | sysretq cs => cases taken

/-! ## Straight code -/

def straight (ops : List Op) : List Instr := ops.map .op

def Cpu.applyAll (cpu : Cpu) (ops : List Op) : Cpu := ops.foldl Op.apply cpu

theorem exec_straight (ops : List Op) (rest : List Instr) (cpu : Cpu) :
    exec (straight ops ++ rest) cpu = exec rest (cpu.applyAll ops) := by
  induction ops generalizing cpu with
  | nil => rfl
  | cons op ops ih => exact (exec_op _ _ _).trans (ih _)

theorem exec_straight_end (ops : List Op) (cpu : Cpu) : exec (straight ops) cpu = some (cpu.applyAll ops) := by
  rw [← List.append_nil (straight ops), exec_straight, exec_nil]

theorem applyAll_append (first second : List Op) (cpu : Cpu) :
    cpu.applyAll (first ++ second) = (cpu.applyAll first).applyAll second := List.foldl_append

def Cpu.mode (cpu : Cpu) : UInt64 × UInt64 × UInt64 × Bool := (cpu.cs, cpu.gsBase, cpu.kernelGsBase, cpu.interrupts)

theorem mode_ret (cpu : Cpu) : cpu.ret.mode = cpu.mode := rfl

theorem mem_ret (cpu : Cpu) : cpu.ret.mem = cpu.mem := rfl

theorem regs_ret (cpu : Cpu) {reg : Reg} (other : reg ≠ .rsp) : cpu.ret.regs reg = cpu.regs reg :=
  Function.update_of_ne other _ _

theorem mode_apply {op : Op} (plain : op ≠ .swapgs) (cpu : Cpu) : (op.apply cpu).mode = cpu.mode := by
  have flag := op.interrupts_apply cpu
  unfold Cpu.mode
  rw [flag]
  cases op with
  | swapgs => exact absurd rfl plain
  | _ => rfl

theorem mode_applyAll {ops : List Op} (plain : .swapgs ∉ ops) (cpu : Cpu) : (cpu.applyAll ops).mode = cpu.mode := by
  induction ops generalizing cpu with
  | nil => rfl
  | cons op ops ih =>
    rw [List.mem_cons, not_or] at plain
    exact (ih plain.2 _).trans (mode_apply (fun same => plain.1 same.symm) cpu)

/-! ## Registers on the stack -/

def pushes (regs : List Reg) : List Op := regs.map .push

def pops (regs : List Reg) : List Op := regs.map .pop

def Cpu.pushAll (cpu : Cpu) (regs : List Reg) : Cpu := cpu.applyAll (pushes regs)

def Cpu.popAll (cpu : Cpu) (regs : List Reg) : Cpu := cpu.applyAll (pops regs)

theorem rsp_push (cpu : Cpu) (value : UInt64) : (cpu.push value).rsp = cpu.rsp - 8 :=
  show Function.update cpu.regs .rsp (cpu.rsp - 8) .rsp = _ from Function.update_self _ _ _

theorem regs_push (cpu : Cpu) (value : UInt64) {reg : Reg} (other : reg ≠ .rsp) :
    (cpu.push value).regs reg = cpu.regs reg := Function.update_of_ne other _ _

theorem pushAll_eq (cpu : Cpu) (regs : List Reg) :
    cpu.pushAll regs =
    { cpu.set .rsp (cpu.rsp - 8 * UInt64.ofNat regs.length) with mem := (cpu.pushAll regs).mem } := by
  induction regs generalizing cpu with
  | nil =>
    have same : Function.update cpu.regs .rsp (cpu.rsp - 8 * UInt64.ofNat 0) = cpu.regs := by
      rw [show cpu.rsp - 8 * UInt64.ofNat 0 = cpu.regs .rsp by grind [Cpu.rsp], Function.update_eq_self]
    change cpu = { cpu with regs := Function.update cpu.regs .rsp (cpu.rsp - 8 * UInt64.ofNat 0) }
    rw [same]
  | cons reg regs ih =>
    have step := ih (cpu.push (cpu.regs reg))
    change (cpu.push (cpu.regs reg)).pushAll regs = _
    rw [step, rsp_push]
    have sum : cpu.rsp - 8 - 8 * UInt64.ofNat regs.length = cpu.rsp - 8 * UInt64.ofNat (regs.length + 1) := by
      rw [UInt64.ofNat_add]
      grind
    rw [sum]
    unfold Cpu.push Cpu.set
    dsimp only
    rw [Function.update_idem]
    rfl

theorem rsp_set (cpu : Cpu) (value : UInt64) : (cpu.set .rsp value).rsp = value :=
  show Function.update cpu.regs .rsp value .rsp = _ from Function.update_self _ _ _

theorem rsp_pushAll (cpu : Cpu) (regs : List Reg) :
    (cpu.pushAll regs).rsp = cpu.rsp - 8 * UInt64.ofNat regs.length := by
  rw [pushAll_eq]
  exact rsp_set cpu _

theorem distance_pushAll (cpu : Cpu) {regs : List Reg} (few : regs.length ≤ 2 ^ 32) :
    (cpu.rsp - (cpu.pushAll regs).rsp).toNat = 8 * regs.length := by
  have eight : (8 : UInt64).toNat = 8 := rfl
  rw [rsp_pushAll, show cpu.rsp - (cpu.rsp - 8 * UInt64.ofNat regs.length) = 8 * UInt64.ofNat regs.length by grind,
    UInt64.toNat_mul, UInt64.toNat_ofNat', eight]
  omega

theorem push_holds {words : List UInt64} (holds : cpu.mem.Holds cpu.rsp words) (value : UInt64)
    (room : 8 * words.length + 8 ≤ 2 ^ 64) :
    (cpu.push value).mem.Holds (cpu.push value).rsp (value :: words) := by
  rw [rsp_push]
  exact holds.push value room

theorem pushAll_holds {words : List UInt64} (holds : cpu.mem.Holds cpu.rsp words) {regs : List Reg}
    (plain : .rsp ∉ regs) (room : 8 * (words.length + regs.length) ≤ 2 ^ 64) :
    (cpu.pushAll regs).mem.Holds (cpu.pushAll regs).rsp (regs.reverse.map cpu.regs ++ words) := by
  induction regs generalizing cpu words with
  | nil => exact holds
  | cons reg regs ih =>
    rw [List.mem_cons, not_or] at plain
    rw [List.length_cons] at room
    have pushed := push_holds holds (cpu.regs reg) (by omega)
    have rest := ih pushed plain.2 (by rw [List.length_cons]; omega)
    have values : regs.reverse.map (cpu.push (cpu.regs reg)).regs = regs.reverse.map cpu.regs := by
      apply List.map_congr_left
      intro other member
      apply regs_push
      rintro rfl
      exact plain.2 (List.mem_reverse.mp member)
    rw [values] at rest
    rw [List.reverse_cons, List.map_append, List.append_assoc]
    exact rest

theorem interrupt_holds (cpu : Cpu) (stack handler cs : UInt64) (error : Option UInt64) :
    (cpu.interrupt stack handler cs error).mem.Holds (cpu.interrupt stack handler cs error).rsp
      (error.toList ++ [cpu.rip, cpu.cs, cpu.rflags, cpu.rsp, cpu.ss]) := by
  have saved (below : Cpu) :
      (((((below.push cpu.ss).push cpu.rsp).push cpu.rflags).push cpu.cs).push cpu.rip).mem.Holds
        (((((below.push cpu.ss).push cpu.rsp).push cpu.rflags).push cpu.cs).push cpu.rip).rsp
        [cpu.rip, cpu.cs, cpu.rflags, cpu.rsp, cpu.ss] := by
    have empty : below.mem.Holds below.rsp [] := trivial
    have few (words : List UInt64) (short : words.length ≤ 4) : 8 * words.length + 8 ≤ 2 ^ 64 := by omega
    have first := push_holds empty cpu.ss (few _ (Nat.le_of_ble_eq_true rfl))
    have second := push_holds first cpu.rsp (few _ (Nat.le_of_ble_eq_true rfl))
    have third := push_holds second cpu.rflags (few _ (Nat.le_of_ble_eq_true rfl))
    have fourth := push_holds third cpu.cs (few _ (Nat.le_of_ble_eq_true rfl))
    exact push_holds fourth cpu.rip (few _ (Nat.le_of_ble_eq_true rfl))
  unfold Cpu.interrupt
  generalize cpu.set .rsp (stack &&& -16) = below
  cases error with
  | none => exact saved below
  | some code => exact push_holds (saved below) code (Nat.le_of_ble_eq_true rfl)

theorem regs_interrupt (cpu : Cpu) (stack handler cs : UInt64) (error : Option UInt64) {reg : Reg}
    (other : reg ≠ .rsp) :
    (cpu.interrupt stack handler cs error).regs reg = cpu.regs reg := by
  have moved : (cpu.set .rsp (stack &&& -16)).regs reg = cpu.regs reg := Function.update_of_ne other _ _
  cases error with
  | none =>
    unfold Cpu.interrupt
    dsimp only
    rw [regs_push _ _ other, regs_push _ _ other, regs_push _ _ other, regs_push _ _ other, regs_push _ _ other, moved]
  | some code =>
    unfold Cpu.interrupt
    dsimp only
    rw [regs_push _ _ other, regs_push _ _ other, regs_push _ _ other, regs_push _ _ other, regs_push _ _ other,
      regs_push _ _ other, moved]

theorem agree_push {base : UInt64} {size : Nat} (value : UInt64) (room : size + (base - cpu.rsp).toNat + 8 ≤ 2 ^ 64) :
    ByteMemory.Agree base size cpu.mem (cpu.push value).mem := by
  have distance : (cpu.rsp - 8 - base).toNat = 2 ^ 64 - ((base - cpu.rsp).toNat + 8) := by
    have sum : cpu.rsp - 8 - base = -((base - cpu.rsp) + 8) := by grind
    have eight : (8 : UInt64).toNat = 8 := rfl
    have size : UInt64.size = 2 ^ 64 := rfl
    rw [sum, UInt64.toNat_neg, UInt64.toNat_add, eight, size]
    omega
  apply ByteMemory.agree_store
  · rw [distance]
    omega
  · rw [distance]
    omega

theorem agree_pushAll {base : UInt64} {size : Nat} {regs : List Reg}
    (room : size + (base - cpu.rsp).toNat + 8 * regs.length ≤ 2 ^ 64) :
    ByteMemory.Agree base size cpu.mem (cpu.pushAll regs).mem := by
  induction regs generalizing cpu with
  | nil => exact .refl _ _ _
  | cons reg regs ih =>
    rw [List.length_cons] at room
    have distance : (base - (cpu.push (cpu.regs reg)).rsp).toNat ≤ (base - cpu.rsp).toNat + 8 := by
      have eight : (8 : UInt64).toNat = 8 := rfl
      rw [rsp_push, show base - (cpu.rsp - 8) = (base - cpu.rsp) + 8 by grind, UInt64.toNat_add, eight]
      omega
    exact (agree_push _ (by omega)).trans (ih (by omega))

theorem rsp_pop (cpu : Cpu) {reg : Reg} (other : reg ≠ .rsp) : (cpu.pop reg).rsp = cpu.rsp + 8 := by
  unfold Cpu.pop Cpu.rsp Cpu.set
  dsimp only
  rw [Function.update_of_ne other.symm, Function.update_self]

theorem popAll_eq (cpu : Cpu) {regs : List Reg} (plain : .rsp ∉ regs) :
    cpu.popAll regs = { cpu with regs := (cpu.popAll regs).regs } ∧
      (cpu.popAll regs).rsp = cpu.rsp + 8 * UInt64.ofNat regs.length := by
  induction regs generalizing cpu with
  | nil =>
    refine ⟨rfl, ?_⟩
    change cpu.rsp = cpu.rsp + 8 * UInt64.ofNat 0
    grind
  | cons reg regs ih =>
    rw [List.mem_cons, not_or] at plain
    obtain ⟨same, rsp⟩ := ih (cpu.pop reg) plain.2
    refine ⟨same, ?_⟩
    change ((cpu.pop reg).popAll regs).rsp = _
    rw [rsp, rsp_pop cpu fun equal => plain.1 equal.symm, List.length_cons, UInt64.ofNat_add]
    grind

theorem regs_popAll (cpu : Cpu) {regs : List Reg} {reg : Reg} (absent : reg ∉ regs) (other : reg ≠ .rsp) :
    (cpu.popAll regs).regs reg = cpu.regs reg := by
  induction regs generalizing cpu with
  | nil => rfl
  | cons first regs ih =>
    rw [List.mem_cons, not_or] at absent
    have kept : (cpu.pop first).regs reg = cpu.regs reg := by
      unfold Cpu.pop Cpu.set
      dsimp only
      rw [Function.update_of_ne absent.1, Function.update_of_ne other]
    exact (ih (cpu.pop first) absent.2).trans kept

/-- Registers taken from words that were put there for them. -/
theorem popAll_spec {value : Reg → UInt64} {words : List UInt64} {regs : List Reg} (plain : .rsp ∉ regs)
    (holds : cpu.mem.Holds cpu.rsp (regs.map value ++ words)) :
    cpu.popAll regs = { cpu with
      regs := fun reg => if reg ∈ regs then value reg
        else if reg = .rsp then cpu.rsp + 8 * UInt64.ofNat regs.length else cpu.regs reg } := by
  induction regs generalizing cpu with
  | nil =>
    have same : (fun reg => if reg ∈ ([] : List Reg) then value reg
        else if reg = .rsp then cpu.rsp + 8 * UInt64.ofNat 0 else cpu.regs reg) = cpu.regs := by
      funext reg
      by_cases isRsp : reg = .rsp
      · subst isRsp
        rw [if_neg List.not_mem_nil, if_pos rfl]
        grind [Cpu.rsp]
      · rw [if_neg List.not_mem_nil, if_neg isRsp]
    change cpu = { cpu with regs := _ }
    rw [List.length_nil, same]
  | cons first regs ih =>
    rw [List.mem_cons, not_or] at plain
    obtain ⟨word, others⟩ := holds
    have rsp : (cpu.pop first).rsp = cpu.rsp + 8 := rsp_pop cpu fun same => plain.1 same.symm
    have later := @ih (cpu.pop first) plain.2 (by rw [rsp]; exact others)
    change (cpu.pop first).popAll regs = _
    rw [later, rsp]
    have sum : cpu.rsp + 8 + 8 * UInt64.ofNat regs.length = cpu.rsp + 8 * UInt64.ofNat (first :: regs).length := by
      rw [List.length_cons, UInt64.ofNat_add]
      grind
    rw [sum]
    unfold Cpu.pop Cpu.set
    dsimp only
    congr 1
    funext reg
    -- a register popped here is not popped again later
    by_cases now : reg = first
    · subst now
      have isReg : reg ≠ .rsp := fun same => plain.1 same.symm
      rw [if_pos List.mem_cons_self, Function.update_self, word, if_neg isReg, ite_self]
    · by_cases member : reg ∈ regs
      · rw [if_pos member, if_pos (List.mem_cons_of_mem _ member)]
      · have absent : reg ∉ first :: regs := by
          rw [List.mem_cons, not_or]
          exact ⟨now, member⟩
        rw [if_neg member, if_neg absent, Function.update_of_ne now]
        by_cases isRsp : reg = .rsp
        · rw [if_pos isRsp, if_pos isRsp]
        · rw [if_neg isRsp, if_neg isRsp, Function.update_of_ne isRsp]

theorem toNat_align (rsp : UInt64) : (rsp &&& -16).toNat = rsp.toNat / 16 * 16 := by
  rw [UInt64.toNat_and]
  exact @Bytes.and_mask rsp.toNat 60 4 rsp.toNat_lt

theorem align_toNat (rsp : UInt64) : (rsp - (rsp &&& -16)).toNat < 16 := by
  have masked := toNat_align rsp
  rw [UInt64.toNat_sub_of_le, masked]
  · omega
  · rw [UInt64.le_iff_toNat_le, masked]
    omega

theorem agree_alignedCall {regs : List Reg} (few : regs.length ≤ 16) (cpu : Cpu) (back : UInt64) :
    ByteMemory.Agree cpu.rsp (2 ^ 32) cpu.mem
      ((cpu.pushAll regs).mem.store (((cpu.pushAll regs).rsp &&& -16) - 8) back) := by
  have near := align_toNat (cpu.pushAll regs).rsp
  have pushed := distance_pushAll cpu (Nat.le_trans few (by decide : 16 ≤ 2 ^ 32))
  have self : (cpu.rsp - cpu.rsp).toNat = 0 := by
    rw [UInt64.sub_self]
    rfl
  have saved : ByteMemory.Agree cpu.rsp (2 ^ 32) cpu.mem (cpu.pushAll regs).mem := agree_pushAll (by omega)
  apply saved.trans
  generalize cpu.pushAll regs = below at *
  have sum : cpu.rsp - (below.rsp &&& -16) = (cpu.rsp - below.rsp) + (below.rsp - (below.rsp &&& -16)) := by grind
  have called := @agree_push (below.set .rsp (below.rsp &&& -16)) cpu.rsp (2 ^ 32) back
  rw [rsp_set, sum, UInt64.toNat_add] at called
  exact called (by omega)

theorem applyAll_mov_pops (cpu : Cpu) (stack : Reg) (regs : List Reg) :
    cpu.applyAll (.mov .rsp stack :: pops regs) = (cpu.set .rsp (cpu.regs stack)).popAll regs := rfl

theorem applyAll_pushes_mov (cpu : Cpu) (regs : List Reg) (dst : Reg) :
    cpu.applyAll (pushes regs ++ [.mov dst .rsp]) = (cpu.pushAll regs).set dst (cpu.pushAll regs).rsp := by
  rw [applyAll_append]
  rfl

theorem popAll_ret {value : Reg → UInt64} {rip : UInt64} {regs : List Reg} (plain : .rsp ∉ regs)
    (holds : cpu.mem.Holds cpu.rsp (regs.map value ++ [rip])) :
    (cpu.popAll regs).ret = { cpu with
      rip := rip
      regs := fun reg => if reg ∈ regs then value reg
        else if reg = .rsp then cpu.rsp + 8 * UInt64.ofNat regs.length + 8 else cpu.regs reg } := by
  have last := holds.drop.1
  rw [List.length_map] at last
  rw [popAll_spec plain holds]
  unfold Cpu.ret Cpu.set Cpu.rsp
  dsimp only
  rw [if_neg plain, if_pos rfl]
  change { cpu with rip := cpu.mem.load (cpu.rsp + 8 * UInt64.ofNat regs.length), regs := _ } = _
  rw [last]
  congr 1
  funext reg
  by_cases isRsp : reg = .rsp
  · subst isRsp
    rw [Function.update_self, if_neg plain, if_pos rfl]
  · rw [Function.update_of_ne isRsp, if_neg isRsp, if_neg isRsp]

theorem iretq_spec {rip cs rflags rsp ss : UInt64} (holds : cpu.mem.Holds cpu.rsp [rip, cs, rflags, rsp, ss]) :
    cpu.iretq = { cpu.set .rsp rsp with rip := rip, cs := cs, rflags := rflags, ss := ss } := by
  obtain ⟨first, second, third, fourth, fifth, _⟩ := holds
  rw [show cpu.rsp + 8 + 8 = cpu.rsp + 16 by grind] at third fourth fifth
  rw [show cpu.rsp + 16 + 8 = cpu.rsp + 24 by grind] at fourth fifth
  rw [show cpu.rsp + 24 + 8 = cpu.rsp + 32 by grind] at fifth
  unfold Cpu.iretq
  rw [first, second, third, fourth, fifth]

theorem rsp_mov_pops (cpu : Cpu) (stack : Reg) {regs : List Reg} (plain : .rsp ∉ regs) :
    (cpu.applyAll (.mov .rsp stack :: pops regs)).rsp = cpu.regs stack + 8 * UInt64.ofNat regs.length ∧
    (cpu.applyAll (.mov .rsp stack :: pops regs)).mem = cpu.mem := by
  obtain ⟨same, rsp⟩ := popAll_eq (cpu.set .rsp (cpu.regs stack)) plain
  rw [rsp_set] at rsp
  have mem := congrArg Cpu.mem same
  rw [applyAll_mov_pops]
  exact ⟨rsp, mem⟩

theorem rsp_add (cpu : Cpu) (value : UInt64) :
    (cpu.applyAll [.add .rsp value]).rsp = cpu.rsp + value ∧ (cpu.applyAll [.add .rsp value]).mem = cpu.mem :=
  ⟨rsp_set cpu _, rfl⟩

end ElseOS.Base.X86
