import ElseOS.Arch.Contexts

/-! The registers of user code from the instruction `syscall` to `sysretq`.

Rust code is known by its calling convention only. While it runs it may suspend the thread
any number of times; other threads then use the processor, and with it its registers and
the two words of `PER_CPU`. -/

set_option autoImplicit false

namespace ElseOS.Arch

open Base (ByteMemory)
open Base.X86

variable {cpu final : Cpu} {top : UInt64}

/-! ## Into the handler -/

/-- What `syscall_entry` leaves on the stack, from the lowest address on. -/
def userWords (user : Cpu) : List UInt64 :=
  user.rsp :: [user.regs .rax, user.rip, user.regs .rdx, user.regs .rbx, user.regs .rbp, user.regs .rsi, user.regs .rdi,
    user.regs .r8, user.regs .r9, user.regs .r10, user.rflags, user.regs .r12, user.regs .r13, user.regs .r14,
    user.regs .r15]

/-- `PER_CPU` is not a part of the stack that `syscall_entry` uses. -/
def Distinct (perCpu top : UInt64) : Prop := 16 + (perCpu - top).toNat + 128 ≤ 2 ^ 64

theorem Distinct.userStack {perCpu : UInt64} (distinct : Distinct perCpu top) :
    8 + (perCpu + 8 - top).toNat + 128 ≤ 2 ^ 64 := by
  unfold Distinct at distinct
  have size : (perCpu + 8 - top).toNat = (perCpu - top).toNat + 8 :=
    ByteMemory.toNat_of_eq_add (by grind) (by omega)
  omega

theorem enter_stack (user : Cpu) (entry : UInt64) (isTop : user.mem.load user.kernelGsBase = top) :
    (user.syscall entry kernelCs).applyAll [.swapgs, .storeGs 8 .rsp, .loadGs .rsp 0] =
      { (user.syscall entry kernelCs).set .rsp top with
        gsBase := user.kernelGsBase
        kernelGsBase := user.gsBase
        mem := user.mem.store (user.kernelGsBase + 8) user.rsp } := by
  have eight : (user.kernelGsBase + 8 - user.kernelGsBase).toNat = 8 := by
    rw [show user.kernelGsBase + 8 - user.kernelGsBase = 8 by grind]
    rfl
  have apart : ByteMemory.Agree user.kernelGsBase 8 user.mem (user.mem.store (user.kernelGsBase + 8) user.rsp) :=
    ByteMemory.agree_store _ _ (by rw [eight]) (by rw [eight]; decide)
  have loaded : (user.mem.store (user.kernelGsBase + 8) user.rsp).load (user.kernelGsBase + 0) = top := by
    rw [UInt64.add_zero, ← apart.load, isTop]
  rw [← loaded]
  rfl

theorem call_handler (cpu : Cpu) (back : UInt64) :
    let called := cpu.applyAll [.mov .rcx .r10, .mov .rbp .rsp, .and .rsp (-16), .sub .rsp 8, .push .rax, .call back]
    called.rsp = (cpu.rsp &&& -16) - 24 ∧ called.regs .rbp = cpu.rsp ∧ called.regs .rcx = cpu.regs .r10 ∧
      (∀ reg ∈ [Reg.rdi, .rsi, .rdx, .r8, .r9], called.regs reg = cpu.regs reg) ∧ called.gsBase = cpu.gsBase ∧
      called.kernelGsBase = cpu.kernelGsBase ∧
      called.mem = (cpu.mem.store ((cpu.rsp &&& -16) - 16) (cpu.regs .rax)).store ((cpu.rsp &&& -16) - 24) back := by
  have first : (cpu.rsp &&& -16) - 8 - 8 = (cpu.rsp &&& -16) - 16 := by grind
  have second : (cpu.rsp &&& -16) - 8 - 8 - 8 = (cpu.rsp &&& -16) - 24 := by grind
  rw [← first, ← second]
  refine ⟨rfl, rfl, rfl, ?_, rfl, rfl, rfl⟩
  intro reg member
  simp only [List.mem_cons, List.not_mem_nil, or_false] at member
  rcases member with rfl | rfl | rfl | rfl | rfl <;> rfl

structure Called (user : Cpu) (top back : UInt64) (cpu : Cpu) : Prop where
  arguments : (cpu.regs .rdi, cpu.regs .rsi, cpu.regs .rdx, cpu.regs .rcx, cpu.regs .r8, cpu.regs .r9,
      cpu.mem.load (cpu.rsp + 8)) =
    (user.regs .rdi, user.regs .rsi, user.regs .rdx, user.regs .r10, user.regs .r8, user.regs .r9, user.regs .rax)
  back : cpu.mem.load cpu.rsp = back
  aligned : (cpu.rsp + 8).toNat % 16 = 0
  frame : cpu.regs .rbp = top - 128
  near : (top - 128 - (cpu.rsp + 16)).toNat < 24
  words : cpu.mem.Holds (top - 128) (userWords user)
  gsBase : cpu.gsBase = user.kernelGsBase
  kernelGsBase : cpu.kernelGsBase = user.gsBase

def argumentRegs : List Reg := [.rdi, .rsi, .rdx, .r10, .r8, .r9, .rax]

theorem push_userStack (cpu : Cpu) :
    let pushed := cpu.applyAll [.loadGs .rbx 8, .push .rbx]
    pushed.rsp = cpu.rsp - 8 ∧ pushed.mem = cpu.mem.store (cpu.rsp - 8) (cpu.mem.load (cpu.gsBase + 8)) ∧
      pushed.gsBase = cpu.gsBase ∧ pushed.kernelGsBase = cpu.kernelGsBase ∧
      ∀ reg ∈ argumentRegs, pushed.regs reg = cpu.regs reg := by
  refine ⟨rfl, rfl, rfl, rfl, ?_⟩
  intro reg member
  simp only [argumentRegs, List.mem_cons, List.not_mem_nil, or_false] at member
  rcases member with rfl | rfl | rfl | rfl | rfl | rfl | rfl <;> rfl

theorem push_registers {words : List UInt64} {userRsp : UInt64} (isTop : cpu.rsp = top)
    (slot : cpu.mem.load (cpu.gsBase + 8) = userRsp) (distinct : 8 + (cpu.gsBase + 8 - top).toNat + 128 ≤ 2 ^ 64)
    (values : syscallRegs.reverse.map cpu.regs = words) :
    ∃ saved, cpu.applyAll (pushes syscallRegs ++ [.loadGs .rbx 8, .push .rbx]) = saved ∧
      saved.rsp = top - 128 ∧ saved.mem.Holds (top - 128) (userRsp :: words) ∧ saved.gsBase = cpu.gsBase ∧
      saved.kernelGsBase = cpu.kernelGsBase ∧ ∀ reg ∈ argumentRegs, saved.regs reg = cpu.regs reg := by
  have pushed := @pushAll_holds cpu [] trivial syscallRegs (by decide) (by decide)
  have below := rsp_pushAll cpu syscallRegs
  have others := pushAll_eq cpu syscallRegs
  -- the slot of the user's stack pointer is not on the stack, so the pushes leave it
  have kept : ByteMemory.Agree (cpu.gsBase + 8) 8 cpu.mem (cpu.pushAll syscallRegs).mem := by
    apply agree_pushAll
    rw [isTop]
    exact Nat.le_trans (Nat.add_le_add_left (by decide) _) distinct
  rw [kept.load] at slot
  rw [values, List.append_nil, below, isTop] at pushed
  rw [isTop] at below
  rw [applyAll_append, ← Cpu.pushAll]
  obtain ⟨down, mem, gs, kernelGs, regs⟩ := push_userStack (cpu.pushAll syscallRegs)
  have base : (cpu.pushAll syscallRegs).gsBase = cpu.gsBase := by rw [others]; rfl
  have other : (cpu.pushAll syscallRegs).kernelGsBase = cpu.kernelGsBase := by rw [others]; rfl
  have same : ∀ reg ∈ argumentRegs, (cpu.pushAll syscallRegs).regs reg = cpu.regs reg := by
    intro reg member
    rw [others]
    apply Function.update_of_ne
    rintro rfl
    exact absurd member (by decide)
  have few : 8 * words.length + 8 ≤ 2 ^ 64 := by
    rw [← values, List.length_map, List.length_reverse]
    decide
  have sum : top - 8 * UInt64.ofNat syscallRegs.length - 8 = top - 128 := by
    rw [show syscallRegs.length = 15 from rfl]
    grind
  have whole := pushed.push userRsp few
  rw [sum] at whole
  generalize cpu.pushAll syscallRegs = stacked at *
  rw [below, sum] at down
  rw [base, slot, below, sum] at mem
  refine ⟨_, rfl, down, ?_, gs.trans base, kernelGs.trans other,
    fun reg member => (regs reg member).trans (same reg member)⟩
  rw [mem]
  exact whole

theorem push_argument (mem : ByteMemory) {base edge : UInt64} (value back : UInt64) (near : (base - edge).toNat < 16) :
    let pushed := (mem.store (edge - 16) value).store (edge - 24) back
    pushed.Holds (edge - 24) [back, value] ∧ ByteMemory.Agree base 128 mem pushed := by
  have first : (base - (edge - 16)).toNat = (base - edge).toNat + 16 :=
    ByteMemory.toNat_of_eq_add (by grind) (by omega)
  have second : (base - (edge - 24)).toNat = (base - edge).toNat + 24 :=
    ByteMemory.toNat_of_eq_add (by grind) (by omega)
  constructor
  · have empty : mem.Holds (edge - 8) [] := trivial
    have argument := empty.push value (by decide)
    have whole := argument.push back (Nat.le_of_ble_eq_true rfl)
    rw [show edge - 8 - 8 = edge - 16 by grind, show edge - 16 - 8 = edge - 24 by grind] at whole
    exact whole
  · apply ByteMemory.Agree.trans (ByteMemory.agree_store_below value _ _) (ByteMemory.agree_store_below back _ _)
    all_goals omega

theorem Called.of_saved {user : Cpu} {back : UInt64} (rsp : cpu.rsp = top - 128)
    (words : cpu.mem.Holds (top - 128) (userWords user)) (gsBase : cpu.gsBase = user.kernelGsBase)
    (kernelGsBase : cpu.kernelGsBase = user.gsBase) (arguments : ∀ reg ∈ argumentRegs, cpu.regs reg = user.regs reg) :
    Called user top back
      (cpu.applyAll [.mov .rcx .r10, .mov .rbp .rsp, .and .rsp (-16), .sub .rsp 8, .push .rax, .call back]) := by
  obtain ⟨down, frame, fourth, others, gs, kernelGs, mem⟩ := call_handler cpu back
  generalize cpu.applyAll [.mov .rcx .r10, .mov .rbp .rsp, .and .rsp (-16), .sub .rsp 8, .push .rax, .call back] =
    called at *
  have near := align_toNat cpu.rsp
  have multiple := toNat_align cpu.rsp
  generalize cpu.rsp &&& -16 = edge at *
  obtain ⟨pair, agree⟩ := push_argument cpu.mem (cpu.regs .rax) back near
  rw [← mem] at pair agree
  have seventh : called.mem.load (called.rsp + 8) = user.regs .rax := by
    rw [down, pair.2.1]
    exact arguments .rax (by decide)
  constructor
  · rw [seventh, fourth, arguments .r10 (by decide), others .rdi (by decide), others .rsi (by decide),
      others .rdx (by decide), others .r8 (by decide), others .r9 (by decide), arguments .rdi (by decide),
      arguments .rsi (by decide), arguments .rdx (by decide), arguments .r8 (by decide), arguments .r9 (by decide)]
  · rw [down]
    exact pair.1
  · rw [down, show edge - 24 + 8 = edge - 16 by grind, UInt64.toNat_sub]
    change (2 ^ 64 - 16 + edge.toNat) % 2 ^ 64 % 16 = 0
    omega
  · rw [frame, rsp]
  · rw [down, show top - 128 - (edge - 24 + 16) = (top - 128 - edge) + 8 by grind, ← rsp, UInt64.toNat_add]
    change ((cpu.rsp - edge).toNat + 8) % 2 ^ 64 < 24
    omega
  · rw [rsp] at agree
    exact agree.holds (Nat.le_of_ble_eq_true rfl) (by decide) words
  · rw [gs, gsBase]
  · rw [kernelGs, kernelGsBase]

theorem exec_syscallEntry_called (user : Cpu) (entry back : UInt64) (isTop : user.mem.load user.kernelGsBase = top)
    (distinct : Distinct user.kernelGsBase top) :
    ∃ cpu, exec (syscallEntry back) (user.syscall entry kernelCs) = some cpu ∧ Called user top back cpu := by
  unfold syscallEntry
  rw [exec_straight_end, List.append_assoc, applyAll_append, enter_stack user entry isTop]
  refine ⟨_, rfl, ?_⟩
  obtain ⟨entered, isEntered⟩ : ∃ entered, entered = { (user.syscall entry kernelCs).set .rsp top with
      gsBase := user.kernelGsBase
      kernelGsBase := user.gsBase
      mem := user.mem.store (user.kernelGsBase + 8) user.rsp } := ⟨_, rfl⟩
  have rsp : entered.rsp = top := by
    rw [isEntered]
    exact rsp_set (user.syscall entry kernelCs) top
  have gsBase : entered.gsBase = user.kernelGsBase := by rw [isEntered]
  have kernelGsBase : entered.kernelGsBase = user.gsBase := by rw [isEntered]
  have slot : entered.mem.load (user.kernelGsBase + 8) = user.rsp := by
    rw [isEntered]
    exact ByteMemory.load_store_same _ _ _
  have values : syscallRegs.reverse.map entered.regs = (userWords user).tail := by
    rw [isEntered]
    rfl
  have kept : ∀ reg ∈ argumentRegs, entered.regs reg = user.regs reg := by
    intro reg member
    rw [isEntered]
    simp only [argumentRegs, List.mem_cons, List.not_mem_nil, or_false] at member
    rcases member with rfl | rfl | rfl | rfl | rfl | rfl | rfl <;> rfl
  have code : pushes syscallRegs ++ [.loadGs .rbx 8, .push .rbx, .mov .rcx .r10, .mov .rbp .rsp, .and .rsp (-16),
      .sub .rsp 8, .push .rax, .call back] = (pushes syscallRegs ++ [.loadGs .rbx 8, .push .rbx]) ++
      [.mov .rcx .r10, .mov .rbp .rsp, .and .rsp (-16), .sub .rsp 8, .push .rax, .call back] := rfl
  rw [← isEntered, code, applyAll_append]
  rw [← gsBase] at slot
  have apart := distinct.userStack
  rw [← gsBase] at apart
  obtain ⟨saved, isSaved, down, words, gs, kernelGs, regs⟩ := push_registers rsp slot apart values
  rw [isSaved]
  have arguments : ∀ reg ∈ argumentRegs, saved.regs reg = user.regs reg :=
    fun reg member => (regs reg member).trans (kept reg member)
  exact Called.of_saved down words (gs.trans gsBase) (kernelGs.trans kernelGsBase) arguments

/-! ## Back to the user -/

/-- What `sysretq` leaves to user code after a system call with this result. -/
structure Returned (user : Cpu) (result : UInt64) (final : Cpu) : Prop where
  regs : ∀ reg, reg ∉ [Reg.rax, .rcx, .r11] → final.regs reg = user.regs reg
  rax : final.regs .rax = result
  rcx : final.regs .rcx = user.rip
  r11 : final.regs .r11 = user.rflags
  rip : final.rip = user.rip
  rflags : final.rflags = user.rflags

theorem checkRip_spec (cpu : Cpu) :
    let checked := cpu.applyAll checkRip
    let mem := cpu.mem.store (cpu.gsBase + 8) (cpu.mem.load (cpu.regs .rbp))
    checked.rsp = cpu.regs .rbp + 8 + 8 ∧ checked.mem = mem ∧ checked.regs .rax = cpu.regs .rax ∧
      checked.gsBase = cpu.gsBase ∧ checked.zero = decide (mem.load (cpu.regs .rbp + 8 + 8) >>> 47 = 0) := by
  refine ⟨rfl, rfl, rfl, rfl, ?_⟩
  have compared : (cpu.applyAll checkRip).zero = decide
      ((cpu.mem.store (cpu.gsBase + 8) (cpu.mem.load (cpu.regs .rbp))).load (cpu.regs .rbp + 8 + 8 + 0) >>> 47 &&&
        (cpu.mem.store (cpu.gsBase + 8) (cpu.mem.load (cpu.regs .rbp))).load (cpu.regs .rbp + 8 + 8 + 0) >>> 47 = 0) :=
    zero_compare _ _
  rw [compared, UInt64.and_self, UInt64.add_zero]

theorem leave_stack (cpu : Cpu) :
    (cpu.applyAll [.loadGs .rsp 8, .swapgs]).sysretq userCs =
      { cpu.set .rsp (cpu.mem.load (cpu.gsBase + 8)) with
        gsBase := cpu.kernelGsBase
        kernelGsBase := cpu.gsBase
        rip := cpu.regs .rcx
        rflags := cpu.regs .r11
        cs := userCs } := rfl

theorem shiftRight_eq_zero_iff (rip : UInt64) : rip >>> 47 = 0 ↔ rip.toNat < 2 ^ 47 := by
  rw [← UInt64.toNat_inj, UInt64.toNat_shiftRight]
  change rip.toNat >>> 47 = 0 ↔ _
  rw [Nat.shiftRight_eq_div_pow, Nat.div_eq_zero_iff]
  omega

def userValue (user : Cpu) : Reg → UInt64
  | .rcx => user.rip
  | .r11 => user.rflags
  | reg => user.regs reg

theorem returned_of_words {user : Cpu} (words : cpu.mem.Holds cpu.rsp (restoredRegs.map (userValue user)))
    (slot : cpu.mem.load (cpu.gsBase + 8) = user.rsp) :
    Returned user (cpu.regs .rax) (((cpu.popAll restoredRegs).applyAll [.loadGs .rsp 8, .swapgs]).sysretq userCs) := by
  rw [← List.append_nil (restoredRegs.map _)] at words
  rw [popAll_spec (by decide) words, leave_stack]
  dsimp only
  rw [slot]
  refine ⟨?_, rfl, rfl, rfl, rfl, rfl⟩
  intro reg others
  cases reg with
  | rax => exact absurd (by decide) others
  | rcx => exact absurd (by decide) others
  | r11 => exact absurd (by decide) others
  | _ => rfl

/-- Where the saved words are intact, they are what user code gets back. -/
theorem exec_syscallExit_returned {user : Cpu} (frame : cpu.regs .rbp = top - 128)
    (words : cpu.mem.Holds (top - 128) (userWords user)) (distinct : Distinct cpu.gsBase top) :
    (exec syscallExit cpu = none ↔ 2 ^ 47 ≤ user.rip.toNat) ∧
      ∀ final, exec syscallExit cpu = some final → Returned user (cpu.regs .rax) final := by
  obtain ⟨rsp, mem, rax, gsBase, zero⟩ := checkRip_spec cpu
  have restored := exec_syscallExit_eq cpu
  rw [frame] at rsp mem zero
  -- the only store on the way out goes to the slot in `PER_CPU`
  have away : ByteMemory.Agree (top - 128) 128 cpu.mem (cpu.mem.store (cpu.gsBase + 8) (cpu.mem.load (top - 128))) := by
    have distance : (cpu.gsBase + 8 - (top - 128)).toNat = (cpu.gsBase - top).toNat + 136 := by
      unfold Distinct at distinct
      exact ByteMemory.toNat_of_eq_add (by grind) (by omega)
    unfold Distinct at distinct
    apply ByteMemory.agree_store
    · rw [distance]
      omega
    · rw [distance]
      omega
  have saved := away.holds (Nat.le_of_ble_eq_true rfl) (by decide) words
  rw [← mem] at saved
  have slot : (cpu.applyAll checkRip).mem.load (cpu.gsBase + 8) = user.rsp := by
    rw [mem, words.1]
    exact ByteMemory.load_store_same _ _ _
  have rip := saved.2.2.1
  rw [mem] at rip
  rw [rip] at zero
  have rest : (cpu.applyAll checkRip).mem.Holds (top - 128 + 8 + 8) (restoredRegs.map (userValue user)) := saved.2.2
  rw [← rsp] at rest
  rw [← gsBase] at slot
  have returned := returned_of_words rest slot
  rw [rax] at returned
  rw [restored, zero]
  constructor
  · rw [ite_eq_right_iff, decide_eq_true_eq, shiftRight_eq_zero_iff]
    constructor
    · intro never
      by_contra low
      cases never (Nat.not_le.mp low)
    · intro high low
      exact absurd high (Nat.not_le.mpr low)
  · intro final left
    split at left
    · obtain rfl := Option.some.inj left
      exact returned
    · cases left

/-! ## Functions -/

def stackSize : Nat := 1024 * 8

def OnStack (top : UInt64) (arguments : Nat) (cpu : Cpu) : Prop :=
  8 + 8 * arguments ≤ (top - cpu.rsp).toNat ∧ (top - cpu.rsp).toNat ≤ stackSize

/-- The calling convention, from behind the call to behind the return, on a stack that ends at `top`: the
function may write below its caller's part of the stack, and over its own arguments there. -/
structure Conforms (top : UInt64) (arguments : Nat) (before after : Cpu) : Prop where
  rip : after.rip = before.mem.load before.rsp
  rsp : after.rsp = before.rsp + 8
  regs : ∀ reg ∈ calleeSaved, after.regs reg = before.regs reg
  gsBase : after.gsBase = before.gsBase
  kernelGsBase : after.kernelGsBase = before.kernelGsBase
  stack : ByteMemory.Agree (before.rsp + 8 + 8 * UInt64.ofNat arguments)
    (top - (before.rsp + 8 + 8 * UInt64.ofNat arguments)).toNat before.mem after.mem

inductive SwitchesOut (before : Cpu) (saved : UInt64) (mem : ByteMemory) : Prop where
  | cooperative {next : Cpu} : exec switchContext before = some next → next.regs .rax = saved → next.mem = mem →
      SwitchesOut before saved mem
  | preemptive {call : Cpu} (back : UInt64) : exec (switchContextToPreemptive back) before = some call →
      call.regs .rdi = saved → call.mem = mem → SwitchesOut before saved mem

/-- The call of one of these functions, up to the return into the thread. Whatever the processor did in
between, it has the kernel's base of `gs` again and it has not written to this thread's stack. -/
structure Suspends (top : UInt64) (before after : Cpu) : Prop where
  onStack : OnStack top 0 before
  resumed : ∃ saved mem cpu, SwitchesOut before saved mem ∧ Resumes saved cpu after ∧
    ByteMemory.Agree saved (top - saved).toNat mem after.mem ∧
    cpu.gsBase = before.gsBase ∧ cpu.kernelGsBase = before.kernelGsBase

theorem switchContextToPreemptive_call {back : UInt64} (left : exec (switchContextToPreemptive back) cpu = some final) :
    final.regs .rdi = (cpu.pushAll pushedRegs).rsp ∧
      final.mem = (cpu.pushAll pushedRegs).mem.store (((cpu.pushAll pushedRegs).rsp &&& -16) - 8) back := by
  have code : switchContextToPreemptive back = straight (pushes pushedRegs ++
      [.mov .r8 .rsp, .mov .r9 .rdi, .mov .rdi .r8, .mov .r12 .rsp, .and .rsp (-16), .call back]) := rfl
  have call (cpu : Cpu) :
      let called := cpu.applyAll
        [.mov .r8 .rsp, .mov .r9 .rdi, .mov .rdi .r8, .mov .r12 .rsp, .and .rsp (-16), .call back]
      called.regs .rdi = cpu.rsp ∧ called.mem = cpu.mem.store ((cpu.rsp &&& -16) - 8) back := ⟨rfl, rfl⟩
  rw [code, exec_straight_end, applyAll_append, ← Cpu.pushAll] at left
  obtain rfl := Option.some.inj left
  exact call _

theorem aligned_distance (rsp : UInt64) : (rsp - ((rsp &&& -16) - 8)).toNat = (rsp - (rsp &&& -16)).toNat + 8 := by
  have near := align_toNat rsp
  exact ByteMemory.toNat_of_eq_add (by grind) (by omega)

theorem switchesOut_spec {before : Cpu} {saved : UInt64} {mem : ByteMemory} (out : SwitchesOut before saved mem) :
    saved = before.rsp - 48 ∧ mem.Holds saved (calleeSaved.map before.regs ++ [before.mem.load before.rsp]) ∧
      ByteMemory.Agree before.rsp (2 ^ 32) before.mem mem := by
  have here : before.mem.Holds before.rsp [before.mem.load before.rsp] := ⟨rfl, trivial⟩
  have words := @pushAll_holds before _ here pushedRegs (by decide) (Nat.le_of_ble_eq_true rfl)
  have order : pushedRegs.reverse = calleeSaved := rfl
  have rsp := rsp_pushAll before pushedRegs
  have below : before.rsp - 8 * UInt64.ofNat pushedRegs.length = before.rsp - 48 := by
    rw [show pushedRegs.length = 6 from rfl]
    grind
  have agree : ByteMemory.Agree before.rsp (2 ^ 32) before.mem (before.pushAll pushedRegs).mem := by
    apply agree_pushAll
    rw [UInt64.sub_self]
    decide
  rw [order] at words
  rw [below] at rsp
  cases out with
  | cooperative left isSaved isMem =>
    rw [exec_switchContext_eq] at left
    obtain rfl := Option.some.inj left
    generalize before.pushAll pushedRegs = pushed at *
    have told : saved = pushed.rsp := by
      rw [← isSaved, regs_ret _ (by decide), regs_popAll _ (by decide) (by decide)]
      rfl
    have kept : mem = pushed.mem := by
      rw [← isMem, mem_ret, (popAll_eq _ (by decide)).1]
      rfl
    rw [told, kept]
    exact ⟨rsp, words, agree⟩
  | preemptive back left isSaved isMem =>
    obtain ⟨told, kept⟩ := switchContextToPreemptive_call left
    rw [← isSaved, ← isMem, told, kept]
    refine ⟨rsp, ?_, agree_alignedCall (by decide) before back⟩
    apply (ByteMemory.agree_store_below back _ _).holds (Nat.le_refl _) (Nat.le_of_ble_eq_true rfl) words
    -- the call of `after_switch` stores its return address below the registers
    · rw [aligned_distance]
      omega
    · rw [aligned_distance]
      have near := align_toNat (before.pushAll pushedRegs).rsp
      change _ + 8 * 7 ≤ _
      omega

/-- To its caller, a function that suspends the thread is a function like any other. -/
theorem Suspends.conforms {before after : Cpu} (suspends : Suspends top before after) :
    Conforms top 0 before after := by
  obtain ⟨onStack, saved, mem, cpu, out, resumes, kept, gsBase, kernelGsBase⟩ := suspends
  obtain ⟨isSaved, words, agree⟩ := switchesOut_spec out
  unfold OnStack stackSize at onStack
  have size : (top - saved).toNat = (top - before.rsp).toNat + 48 := by
    rw [isSaved]
    exact ByteMemory.toNat_of_eq_add (by grind) (by omega)
  have enough : 8 * (calleeSaved.map before.regs ++ [before.mem.load before.rsp]).length ≤ (top - saved).toNat := by
    change 8 * 7 ≤ _
    omega
  have held := kept.holds enough (by omega) words
  obtain ⟨regs, rsp, rip, mode⟩ := resumes.spec held
  have bases := congrArg (fun mode => (mode.2.1, mode.2.2.1)) mode
  obtain ⟨base, other⟩ := Prod.mk.inj bases
  refine ⟨rip, ?_, regs, base.trans gsBase, other.trans kernelGsBase, ?_⟩
  · rw [rsp, isSaved]
    grind
  · have start : before.rsp + 8 + 8 * UInt64.ofNat 0 = before.rsp + 8 := by grind
    have rest : (top - (before.rsp + 8)).toNat = (top - before.rsp).toNat - 8 :=
      ByteMemory.toNat_of_eq_sub (by grind) (by omega)
    have first : (before.rsp + 8 - before.rsp).toNat = 8 := by
      rw [show before.rsp + 8 - before.rsp = 8 by grind]
      rfl
    have second : (before.rsp + 8 - saved).toNat = 56 := by
      rw [isSaved, show before.rsp + 8 - (before.rsp - 48) = 56 by grind]
      rfl
    rw [start, rest]
    exact (agree.part (by omega) (by decide)).trans (kept.part (by omega) (by omega))

/-- Compiled code, given what the functions that it calls do. -/
structure Abi (top : UInt64) (arguments : Nat) (body : (Cpu → Cpu → Prop) → Cpu → Cpu → Prop) : Prop where
  conforms : ∀ callee : Cpu → Cpu → Prop, (∀ before after, callee before after → Conforms top 0 before after) →
    ∀ before after, OnStack top arguments before → body callee before after → Conforms top arguments before after

theorem Called.onStack {user : Cpu} {back : UInt64} (called : Called user top back cpu) : OnStack top 1 cpu := by
  have near := called.near
  have sum : (top - cpu.rsp).toNat = (top - 128 - (cpu.rsp + 16)).toNat + 144 :=
    ByteMemory.toNat_of_eq_add (by grind) (by omega)
  unfold OnStack stackSize
  omega

/-- The handler's caller keeps the user's words in its part of the stack. -/
theorem Called.kept {user returned : Cpu} {back : UInt64} (called : Called user top back cpu)
    (conforms : Conforms top 1 cpu returned) :
    returned.regs .rbp = top - 128 ∧ returned.mem.Holds (top - 128) (userWords user) := by
  have near := called.near
  have start : cpu.rsp + 8 + 8 * UInt64.ofNat 1 = cpu.rsp + 16 := by grind
  have stack := conforms.stack
  have size : (top - (cpu.rsp + 16)).toNat = (top - 128 - (cpu.rsp + 16)).toNat + 128 :=
    ByteMemory.toNat_of_eq_add (by grind) (by omega)
  rw [start, size] at stack
  have frame : ByteMemory.Agree (top - 128) 128 cpu.mem returned.mem := stack.part (Nat.le_refl _) (by omega)
  refine ⟨?_, frame.holds (Nat.le_of_ble_eq_true rfl) (by decide) called.words⟩
  rw [conforms.regs .rbp (by decide), called.frame]

/-- Whatever the handler does and however often the thread is suspended in it, user code finds its registers
as they were, but for the result and the two that the instruction itself uses. -/
theorem syscall_preserves_registers {body : (Cpu → Cpu → Prop) → Cpu → Cpu → Prop} (user : Cpu) (entry back : UInt64)
    (isTop : user.mem.load user.kernelGsBase = top) (distinct : Distinct user.kernelGsBase top) (abi : Abi top 1 body) :
    ∃ called, exec (syscallEntry back) (user.syscall entry kernelCs) = some called ∧
      (called.regs .rdi, called.regs .rsi, called.regs .rdx, called.regs .rcx, called.regs .r8, called.regs .r9,
          called.mem.load (called.rsp + 8)) =
        (user.regs .rdi, user.regs .rsi, user.regs .rdx, user.regs .r10, user.regs .r8, user.regs .r9, user.regs .rax) ∧
      ∀ returned, body (Suspends top) called returned → returned.rip = back ∧
        (exec syscallExit returned = none ↔ 2 ^ 47 ≤ user.rip.toNat) ∧
        ∀ final, exec syscallExit returned = some final → Returned user (returned.regs .rax) final := by
  obtain ⟨called, left, isCalled⟩ := exec_syscallEntry_called user entry back isTop distinct
  refine ⟨called, left, isCalled.arguments, ?_⟩
  intro returned ran
  have conforms :=
    abi.conforms (Suspends top) (fun _ _ suspends => suspends.conforms) called returned isCalled.onStack ran
  obtain ⟨frame, words⟩ := isCalled.kept conforms
  refine ⟨conforms.rip.trans isCalled.back, ?_⟩
  apply exec_syscallExit_returned frame words
  rw [conforms.gsBase, isCalled.gsBase]
  exact distinct

theorem Called.onStack_push {user : Cpu} {back : UInt64} (called : Called user top back cpu) (value : UInt64) :
    OnStack top 0 (cpu.push value) := by
  have near := called.near
  have sum : (top - (cpu.rsp - 8)).toNat = (top - 128 - (cpu.rsp + 16)).toNat + 152 :=
    ByteMemory.toNat_of_eq_add (by grind) (by omega)
  unfold OnStack stackSize
  rw [rsp_push]
  omega

def blockOnce (callee : Cpu → Cpu → Prop) (before after : Cpu) : Prop :=
  ∃ resumed, callee (before.push 0x1234) resumed ∧ after = (resumed.set .rax 42).ret

theorem abi_blockOnce : Abi top 1 blockOnce := by
  constructor
  rintro callee conform before _ ⟨enough, few⟩ ⟨resumed, called, rfl⟩
  unfold stackSize at few
  have inner := conform _ _ called
  have pushed := rsp_push before 0x1234
  have start : before.rsp - 8 + 8 + 8 * UInt64.ofNat 0 = before.rsp := by grind
  have stack := inner.stack
  have rsp := inner.rsp
  rw [pushed, start] at stack
  rw [pushed, show before.rsp - 8 + 8 = before.rsp by grind] at rsp
  have agree : ByteMemory.Agree before.rsp (top - before.rsp).toNat before.mem resumed.mem := by
    refine (agree_push _ ?_).trans stack
    rw [UInt64.sub_self]
    change (top - before.rsp).toNat + 0 + 8 ≤ 2 ^ 64
    omega
  have here : ByteMemory.Agree before.rsp 8 before.mem resumed.mem := by
    apply agree.part _ (by omega)
    rw [UInt64.sub_self]
    change 0 + 8 ≤ _
    omega
  have regs : ∀ reg ∈ calleeSaved, (resumed.set .rax 42).ret.regs reg = before.regs reg := by
    intro reg member
    have notRsp : reg ≠ .rsp := by
      rintro rfl
      exact absurd member (by decide)
    have notRax : reg ≠ .rax := by
      rintro rfl
      exact absurd member (by decide)
    rw [regs_ret _ notRsp]
    exact (Function.update_of_ne notRax _ _).trans ((inner.regs reg member).trans (regs_push before _ notRsp))
  refine ⟨?_, ?_, regs, inner.gsBase, inner.kernelGsBase, ?_⟩
  · rw [here.load, ← rsp]
    rfl
  · rw [← rsp]
    rfl
  · have first : before.rsp + 8 + 8 * UInt64.ofNat 1 = before.rsp + 16 := by grind
    have offset : (before.rsp + 16 - before.rsp).toNat = 16 := by
      rw [show before.rsp + 16 - before.rsp = 16 by grind]
      rfl
    have rest : (top - (before.rsp + 16)).toNat = (top - before.rsp).toNat - 16 :=
      ByteMemory.toNat_of_eq_sub (by grind) (by omega)
    rw [first, rest]
    exact agree.part (by omega) (by omega)

theorem exists_suspends {before : Cpu} (onStack : OnStack top 0 before) : ∃ after, Suspends top before after := by
  obtain ⟨next, left, mode⟩ := exec_switch (.inl rfl) before
  have bases := congrArg (fun mode => (mode.2.1, mode.2.2.1)) mode
  obtain ⟨base, other⟩ := Prod.mk.inj bases
  have resumed := exec_resumeCooperative_eq .rdi (next.set .rdi (next.regs .rax))
  refine ⟨_, onStack, _, next.mem, _, .cooperative left rfl rfl, .switchContextToCooperative rfl resumed, ?_,
    base, other⟩
  rw [mem_ret, (popAll_eq _ (by decide)).1]
  exact .refl _ _ _

def sampleUser : Cpu :=
  ⟨fun _ => 7, 0x400000, userCs, 0x1b, 0x202, 0, 0x1000, ByteMemory.store (fun _ => 0) 0x1000 0x8000⟩

theorem syscall_preserves_registers_blocked : ∃ called returned final,
    exec (syscallEntry 0x5000) (sampleUser.syscall 0x4000 kernelCs) = some called ∧
    blockOnce (Suspends 0x8000) called returned ∧ exec syscallExit returned = some final ∧
    Returned sampleUser 42 final := by
  have isTop : sampleUser.mem.load sampleUser.kernelGsBase = 0x8000 := ByteMemory.load_store_same _ _ _
  have distinct : Distinct sampleUser.kernelGsBase 0x8000 := by
    unfold Distinct
    decide
  obtain ⟨called, left, _, preserves⟩ :=
    syscall_preserves_registers sampleUser 0x4000 0x5000 isTop distinct abi_blockOnce
  obtain ⟨same, sameLeft, isCalled⟩ := exec_syscallEntry_called sampleUser 0x4000 0x5000 isTop distinct
  obtain rfl : called = same := Option.some.inj (left.symm.trans sameLeft)
  obtain ⟨resumed, suspends⟩ := exists_suspends (isCalled.onStack_push 0x1234)
  obtain ⟨_, halts, returns⟩ := preserves _ ⟨resumed, suspends, rfl⟩
  cases final : exec syscallExit (resumed.set .rax 42).ret with
  | none => exact absurd (halts.mp final) (by decide)
  | some user => exact ⟨called, _, user, left, ⟨resumed, suspends, rfl⟩, final, returns user final⟩

end ElseOS.Arch
