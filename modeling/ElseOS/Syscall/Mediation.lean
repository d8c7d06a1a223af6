import ElseOS.Base.Region
import ElseOS.Machine
import ElseOS.Task.Lineage

/-! Every effect of a call on an endpoint, a process, an interrupt or a port is one the
capability at the given handle allows, judged against the state before the call. -/

set_option autoImplicit false

namespace ElseOS

open Base (Region)

def Event.isAccess : Event → Bool
  | .sent _ _ _ | .receiving _ _ | .waited _ _ | .irqWaited _ _ => true
  | _ => false

namespace Kernel

def accesses (k : Kernel) : List Event := k.trace.filter Event.isAccess

theorem unswitched_accesses : Unswitched accesses where
  cpu _ _ := rfl
  frames _ _ := rfl
  stateToUpdate _ _ := rfl
  emit k event switch := by cases event <;> first | rfl | cases switch
  writeState k ptr state := by cases ptr <;> rfl

variable {k : Kernel}

/-! ## Calls that reach no object -/

theorem accesses_yieldNow : k.yieldNow.1.accesses = k.accesses := by
  unfold yieldNow
  split
  · rfl
  · split <;> rfl

theorem accesses_exitCurrentThread (rax rsp : UInt64) : (k.exitCurrentThread rax rsp).accesses = k.accesses := by
  have retired : ∀ current, (k.retire current).accesses = k.accesses := by
    intro current
    unfold retire
    cases current.processState <;> rfl
  unfold exitCurrentThread
  split
  · rfl
  · dsimp only
    split
    · split
      · rw [unswitched_accesses.resume]
        exact retired _
      · rw [unswitched_accesses.resume, unswitched_accesses.afterSwitch]
        exact retired _
    · exact retired _

theorem accesses_sysEndpointCreate : k.sysEndpointCreate.1.accesses = k.accesses := by
  unfold sysEndpointCreate
  split <;> rfl

theorem accesses_grantMemory (start len : UInt64) : (k.grantMemory start len).1.accesses = k.accesses := by
  unfold grantMemory
  split <;> rfl

theorem accesses_spawnThread (entryPoint userStack stackBase : UInt64) :
    (k.spawnThread entryPoint userStack stackBase).1.accesses = k.accesses := by
  unfold spawnThread
  split <;> rfl

theorem accesses_spawnChild (epHandle entryPoint cr3 stackBase : UInt64) :
    (k.spawnChild epHandle entryPoint cr3 stackBase).1.accesses = k.accesses := by
  unfold spawnChild
  split
  · rfl
  · dsimp only
    split <;> rfl

/-! ## Calls that do -/

variable {current : Thread} {cs : CSpaceRef} {held : Option Capability} {handle : UInt64}

theorem accesses_sendOn (ep : EndpointRef) (msg : Message) :
    (k.sendOn current ep msg).1.accesses = .sent ep current.tid msg :: k.accesses := by
  unfold sendOn
  dsimp only
  split
  · rfl
  · split <;> rfl

theorem accesses_recvOn (ep : EndpointRef) :
    (k.recvOn current ep).1.accesses = .receiving ep current.tid :: k.accesses := by
  unfold recvOn
  dsimp only
  split
  · rfl
  · split <;> rfl

theorem sysSend_cases (found : k.lookup handle = some (current, cs, held)) (msg : Message) :
    (∃ ep rights, held = some (.endpoint ep rights) ∧ rights.contains .SEND = true ∧
      k.sysSend handle msg = k.sendOn current ep msg) ∨
    ((¬ ∃ ep rights, held = some (.endpoint ep rights) ∧ rights.contains .SEND = true) ∧
      ∃ reason, k.sysSend handle msg = (k, .done (.error reason))) := by
  unfold sysSend
  rw [found]
  match held with
  | none => exact .inr ⟨by simp, _, rfl⟩
  | some (.endpoint ep rights) =>
    dsimp only
    split
    next allowed => exact .inl ⟨ep, rights, rfl, allowed, rfl⟩
    next denied => exact .inr ⟨by simpa using denied, _, rfl⟩
  | some (.process _ _) | some (.interrupt _) | some (.portIo _ _ _) | some (.memoryMap _ _) =>
    exact .inr ⟨by simp, _, rfl⟩

theorem sysRecv_cases (found : k.lookup handle = some (current, cs, held)) :
    (∃ ep rights, held = some (.endpoint ep rights) ∧ rights.contains .RECEIVE = true ∧
      k.sysRecv handle = k.recvOn current ep) ∨
    ((¬ ∃ ep rights, held = some (.endpoint ep rights) ∧ rights.contains .RECEIVE = true) ∧
      ∃ reason, k.sysRecv handle = (k, .done (.error reason))) := by
  unfold sysRecv
  rw [found]
  match held with
  | none => exact .inr ⟨by simp, _, rfl⟩
  | some (.endpoint ep rights) =>
    dsimp only
    split
    next allowed => exact .inl ⟨ep, rights, rfl, allowed, rfl⟩
    next denied => exact .inr ⟨by simpa using denied, _, rfl⟩
  | some (.process _ _) | some (.interrupt _) | some (.portIo _ _ _) | some (.memoryMap _ _) =>
    exact .inr ⟨by simp, _, rfl⟩

theorem sysWait_cases (found : k.lookup handle = some (current, cs, held)) :
    (∃ p rights, held = some (.process p rights) ∧ rights.contains .WAIT = true ∧
      (k.sysWait handle).1.accesses = .waited p current.tid :: k.accesses) ∨
    ((¬ ∃ p rights, held = some (.process p rights) ∧ rights.contains .WAIT = true) ∧
      ∃ code < 0, -3 ≤ code ∧ k.sysWait handle = (k, .done code)) := by
  unfold sysWait
  rw [found]
  match held with
  | none => exact .inr ⟨by simp, _, by decide, by decide, rfl⟩
  | some (.process p rights) =>
    dsimp only
    split
    next allowed =>
      refine .inl ⟨p, rights, rfl, allowed, ?_⟩
      split <;> rfl
    next denied => exact .inr ⟨by simpa using denied, _, by decide, by decide, rfl⟩
  | some (.endpoint _ _) | some (.interrupt _) | some (.portIo _ _ _) | some (.memoryMap _ _) =>
    exact .inr ⟨by simp, _, by decide, by decide, rfl⟩

theorem sysWaitIrq_cases (found : k.lookup handle = some (current, cs, held)) :
    (∃ irq, held = some (.interrupt irq) ∧
      (k.sysWaitIrq handle).1.accesses = .irqWaited irq current.tid :: k.accesses) ∨
    ((¬ ∃ irq, held = some (.interrupt irq)) ∧ k.sysWaitIrq handle = (k, .done (-2))) := by
  unfold sysWaitIrq
  rw [found]
  match held with
  | none => exact .inr ⟨by simp, rfl⟩
  | some (.interrupt irq) =>
    refine .inl ⟨irq, rfl, ?_⟩
    dsimp only
    split <;> rfl
  | some (.endpoint _ _) | some (.process _ _) | some (.portIo _ _ _) | some (.memoryMap _ _) =>
    exact .inr ⟨by simp, rfl⟩

end Kernel

def PortAccess.port : PortAccess → UInt16
  | .read port _ | .write port _ _ => port

def PortAccess.width : PortAccess → UInt8
  | .read _ width | .write _ width _ => width

namespace Machine

variable {paging : Paging} {platform : Platform} {m : Machine paging} {regs : Registers} {env : CallEnv}

/-! ## The policy -/

def held (m : Machine paging) (handle : UInt64) : Option Capability :=
  (m.kernel.lookup handle).bind fun found => found.2.2

def PortRight (cap : Option Capability) (port : UInt16) (width : UInt8) : Prop :=
  ∃ start len allowedWidth, cap = some (.portIo start len allowedWidth) ∧
    Region.Within ⟨port.toNat, width.toNat⟩ ⟨start.toNat, len.toNat⟩ ∧ (width = 1 ∨ width = 2 ∨ width = 4) ∧
    (allowedWidth = 0 ∨ allowedWidth = width)

/-- The access is the one the call asks for, and the capability at its handle allows it. -/
def Permits (m : Machine paging) (regs : Registers) : Event → Prop
  | .sent ep _ _ => regs.rax = 4 ∧ ∃ rights, m.held regs.rdi = some (.endpoint ep rights) ∧ rights.contains .SEND = true
  | .receiving ep _ =>
    regs.rax = 5 ∧ ∃ rights, m.held regs.rdi = some (.endpoint ep rights) ∧ rights.contains .RECEIVE = true
  | .waited p _ => regs.rax = 7 ∧ ∃ rights, m.held regs.rdi = some (.process p rights) ∧ rights.contains .WAIT = true
  | .irqWaited irq _ => regs.rax = 8 ∧ m.held regs.rdi = some (.interrupt irq)
  | _ => False

def PermitsPort (m : Machine paging) (regs : Registers) (access : PortAccess) : Prop :=
  (regs.rax = 9 ∨ regs.rax = 10) ∧ PortRight (m.held regs.rdi) access.port access.width

def Authorised (m : Machine paging) (regs : Registers) : Prop :=
  (regs.rax = 4 ∧ ∃ ep rights, m.held regs.rdi = some (.endpoint ep rights) ∧ rights.contains .SEND = true) ∨
  (regs.rax = 5 ∧ ∃ ep rights, m.held regs.rdi = some (.endpoint ep rights) ∧ rights.contains .RECEIVE = true) ∨
  (regs.rax = 7 ∧ ∃ p rights, m.held regs.rdi = some (.process p rights) ∧ rights.contains .WAIT = true) ∨
  (regs.rax = 8 ∧ ∃ irq, m.held regs.rdi = some (.interrupt irq)) ∨
  ((regs.rax = 9 ∨ regs.rax = 10) ∧ PortRight (m.held regs.rdi) regs.rsi.toUInt16 regs.rdx.toUInt8)

def asks (regs : Registers) : Bool := regs.rax.toNat ∈ [4, 5, 7, 8, 9, 10]

/-- What the call did is permitted, and a call that is not authorised changed nothing and returned a
negative code. -/
structure Mediated (m : Machine paging) (regs : Registers) (called : Machine paging × Outcome UInt64) : Prop where
  accesses : ∃ new, called.1.kernel.accesses = new ++ m.kernel.accesses ∧ ∀ event ∈ new, m.Permits regs event
  ports : ∃ new, called.1.ports = new ++ m.ports ∧ ∀ access ∈ new, m.PermitsPort regs access
  refused : asks regs = true → ¬ m.Authorised regs → called.1 = m ∧ ∃ code, called.2 = .done code ∧ 2 ^ 63 ≤ code.toNat

/-- The message pointer of an unauthorised send passes the range check and cannot be read. -/
def SendFaults (m : Machine paging) (regs : Registers) (env : CallEnv) : Prop :=
  regs.rax = 4 ∧ userRange regs.rsi messageSize = true ∧ env.message = none ∧ ¬ m.Authorised regs

theorem held_eq {handle : UInt64} {current : Thread} {cs : CSpaceRef} {cap : Option Capability}
    (found : m.kernel.lookup handle = some (current, cs, cap)) : m.held handle = cap := by
  rw [held, found]
  rfl

theorem portAllowed_iff {cap : Option Capability} {port : UInt16} {size : UInt8} :
    (portAllowed cap port size = true ∧ (size = 1 ∨ size = 2 ∨ size = 4)) ↔ PortRight cap port size := by
  have sums : ∀ start len : UInt16, (port.toUInt32 + size.toUInt32 ≤ start.toUInt32 + len.toUInt32 ↔
      port.toNat + size.toNat ≤ start.toNat + len.toNat) := by
    intro start len
    have portBound := port.toNat_lt
    have sizeBound := size.toNat_lt
    have startBound := start.toNat_lt
    have lenBound := len.toNat_lt
    rw [UInt32.le_iff_toNat_le, UInt32.toNat_add, UInt32.toNat_add, UInt16.toNat_toUInt32, UInt8.toNat_toUInt32,
      UInt16.toNat_toUInt32, UInt16.toNat_toUInt32]
    omega
  unfold PortRight portAllowed
  match cap with
  | none => simp
  | some (.portIo start len allowedWidth) =>
    simp only [Bool.and_eq_true, decide_eq_true_eq, Bool.or_eq_true, sums, UInt16.le_iff_toNat_le, Option.some.injEq,
      Capability.portIo.injEq]
    constructor
    · rintro ⟨⟨⟨low, high⟩, width⟩, size⟩
      exact ⟨start, len, allowedWidth, ⟨rfl, rfl, rfl⟩, ⟨low, high⟩, size, width.imp id Eq.symm⟩
    · rintro ⟨_, _, _, ⟨rfl, rfl, rfl⟩, ⟨low, high⟩, size, width⟩
      exact ⟨⟨⟨low, high⟩, width.imp id Eq.symm⟩, size⟩
  | some (.endpoint _ _) | some (.process _ _) | some (.interrupt _) | some (.memoryMap _ _) => simp

/-! ## Calls without one of the effects -/

def Untouched (m after : Machine paging) : Prop :=
  after.kernel.accesses = m.kernel.accesses ∧ after.ports = m.ports

theorem untouched_sysLog (ptr len : UInt64) : Untouched m (m.sysLog ptr len env).1 := by
  unfold sysLog
  split
  · split
    · exact ⟨rfl, rfl⟩
    · split <;> exact ⟨rfl, rfl⟩
  · exact ⟨rfl, rfl⟩

theorem untouched_sysSpawn (namePtr nameLen epHandle : UInt64) :
    Untouched m (m.sysSpawn platform namePtr nameLen epHandle env).1 := by
  unfold sysSpawn
  split
  · split
    · exact ⟨rfl, rfl⟩
    · split
      · split
        · exact ⟨rfl, rfl⟩
        · exact ⟨rfl, rfl⟩
        · split
          · exact ⟨rfl, rfl⟩
          · exact ⟨Kernel.accesses_spawnChild _ _ _ _, rfl⟩
      · exact ⟨rfl, rfl⟩
  · exact ⟨rfl, rfl⟩

theorem untouched_sysThreadSpawn (entryPoint userStack : UInt64) :
    Untouched m (m.sysThreadSpawn entryPoint userStack env).1 := by
  unfold sysThreadSpawn
  split
  · exact ⟨rfl, rfl⟩
  · exact ⟨Kernel.accesses_spawnThread _ _ _, rfl⟩

theorem untouched_sysMapPhys (handle physAddr length : UInt64) :
    Untouched m (m.sysMapPhys handle physAddr length).1 := by
  have mapped : ∀ cr3 virtAddr actual, Untouched m (m.mapRange cr3 virtAddr actual).1 := by
    intro cr3 virtAddr actual
    unfold mapRange
    split
    · exact ⟨rfl, rfl⟩
    · split <;> exact ⟨rfl, rfl⟩
  unfold sysMapPhys
  split
  · exact ⟨rfl, rfl⟩
  · dsimp only
    split
    · exact mapped _ _ _
    · exact ⟨rfl, rfl⟩
  · exact ⟨rfl, rfl⟩

theorem untouched_sysFramebufferInfo (infoPtr : UInt64) :
    Untouched m (m.sysFramebufferInfo platform infoPtr env).1 := by
  unfold sysFramebufferInfo
  split
  · split
    · split <;> exact ⟨rfl, rfl⟩
    · exact ⟨rfl, rfl⟩
  · exact ⟨rfl, rfl⟩

theorem untouched_sysFrameAlloc (size : UInt64) : Untouched m (m.sysFrameAlloc size).1 := by
  unfold sysFrameAlloc
  split
  · exact ⟨rfl, rfl⟩
  · split
    · exact ⟨rfl, rfl⟩
    · exact ⟨rfl, rfl⟩
    · exact ⟨Kernel.accesses_grantMemory _ _, rfl⟩

theorem untouched_sysDmaAlloc (size : UInt64) : Untouched m (m.sysDmaAlloc platform size).1 := by
  unfold sysDmaAlloc
  split
  next pool ram result called =>
    match result with
    | none => exact ⟨rfl, rfl⟩
    | some none => exact ⟨rfl, rfl⟩
    | some (some phys) => exact ⟨Kernel.accesses_grantMemory _ _, rfl⟩

theorem untouched_sysCapInfo (handle : UInt64) : Untouched m (m.sysCapInfo handle).1 := by
  unfold sysCapInfo
  split <;> exact ⟨rfl, rfl⟩

theorem untouched_of_handler (other : asks regs = false) : Untouched m (m.syscallHandler platform regs env).1 := by
  have differs : ∀ number ∈ [4, 5, 7, 8, 9, 10], regs.rax.toNat ≠ number := by
    intro number member same
    rw [asks, same, decide_eq_false_iff_not] at other
    exact other member
  unfold syscallHandler
  split
  · exact ⟨Kernel.accesses_yieldNow, rfl⟩
  · exact ⟨Kernel.accesses_exitCurrentThread _ _, rfl⟩
  · exact untouched_sysLog _ _
  · exact ⟨Kernel.accesses_sysEndpointCreate, rfl⟩
  next call => exact absurd call (differs 4 (by decide))
  next call => exact absurd call (differs 5 (by decide))
  · exact untouched_sysSpawn _ _ _
  next call => exact absurd call (differs 7 (by decide))
  next call => exact absurd call (differs 8 (by decide))
  next call => exact absurd call (differs 9 (by decide))
  next call => exact absurd call (differs 10 (by decide))
  · exact untouched_sysMapPhys _ _ _
  · exact untouched_sysFramebufferInfo _
  · exact untouched_sysFrameAlloc _
  · exact untouched_sysDmaAlloc _
  · exact untouched_sysCapInfo _
  · exact untouched_sysThreadSpawn _ _
  · exact ⟨rfl, rfl⟩

/-! ## Calls with one of the effects -/

/-- A call that changes nothing and returns a negative code is mediated whatever it asked for. -/
theorem mediated_refused {called : Machine paging × Outcome UInt64} {code : UInt64} (unchanged : called.1 = m)
    (returned : called.2 = .done code) (negative : 2 ^ 63 ≤ code.toNat) : Mediated m regs called :=
  ⟨⟨[], by rw [unchanged]; rfl, by simp⟩, ⟨[], by rw [unchanged]; rfl, by simp⟩,
    fun _ _ => ⟨unchanged, code, returned, negative⟩⟩

theorem mediated_access {called : Machine paging × Outcome UInt64} (event : Event) (authorised : m.Authorised regs)
    (accesses : called.1.kernel.accesses = event :: m.kernel.accesses) (ports : called.1.ports = m.ports)
    (permitted : m.Permits regs event) : Mediated m regs called :=
  ⟨⟨[event], accesses, by simpa using permitted⟩, ⟨[], ports, by simp⟩,
    fun _ unauthorised => absurd authorised unauthorised⟩

theorem mediated_untouched {called : Machine paging × Outcome UInt64} (untouched : Untouched m called.1)
    (entitled : asks regs = false ∨ m.Authorised regs) : Mediated m regs called := by
  refine ⟨⟨[], untouched.1, by simp⟩, ⟨[], untouched.2, by simp⟩, ?_⟩
  intro asked unauthorised
  rcases entitled with none | authorised
  · rw [none] at asked
    cases asked
  · exact absurd authorised unauthorised

theorem capabilityError_negative : 2 ^ 63 ≤ (errno (-3)).toNat := by decide

section Calls

variable {current : Thread} {cs : CSpaceRef} {cap : Option Capability}
  (found : m.kernel.lookup regs.rdi = some (current, cs, cap))

include found

theorem mediated_sysSend (call : regs.rax = 4) (readable : ¬ m.SendFaults regs env) :
    Mediated m regs (m.sysSend regs.rdi regs.rsi env) := by
  have holds := held_eq found
  unfold sysSend
  split
  next inRange =>
    rcases Kernel.sysSend_cases found (env.message.getD .zero)
      with ⟨ep, rights, rfl, allowed, sends⟩ | ⟨denied, reason, refuses⟩
    · have authorised : m.Authorised regs := .inl ⟨call, ep, rights, holds, allowed⟩
      cases read : env.message with
      | none => exact mediated_untouched ⟨rfl, rfl⟩ (.inr authorised)
      | some msg =>
        rw [read, Option.getD_some] at sends
        refine mediated_access (.sent ep current.tid msg) authorised ?_ rfl ⟨call, rights, holds, allowed⟩
        dsimp only [Machine.call]
        rw [sends]
        exact Kernel.accesses_sendOn ep msg
    · have unauthorised : ¬ m.Authorised regs := by
        rw [← holds] at denied
        simpa [Authorised, call] using denied
      cases read : env.message with
      | none => exact absurd ⟨call, inRange, read, unauthorised⟩ readable
      | some msg =>
        rw [read, Option.getD_some] at refuses
        dsimp only [Machine.call]
        rw [refuses]
        exact mediated_refused rfl rfl capabilityError_negative
  next => exact mediated_refused rfl rfl (by decide)

theorem mediated_sysRecv (call : regs.rax = 5) : Mediated m regs (m.sysRecv regs.rdi regs.rsi env) := by
  have holds := held_eq found
  unfold sysRecv
  split
  next =>
    rcases Kernel.sysRecv_cases found with ⟨ep, rights, rfl, allowed, receives⟩ | ⟨_, reason, refuses⟩
    · have authorised : m.Authorised regs := .inr (.inl ⟨call, ep, rights, holds, allowed⟩)
      have accesses := @Kernel.accesses_recvOn m.kernel current ep
      rw [← receives] at accesses
      split
      next kernel msg returned =>
        rw [returned] at accesses
        split <;> exact mediated_access _ authorised accesses rfl ⟨call, rights, holds, allowed⟩
      next => exact mediated_access _ authorised accesses rfl ⟨call, rights, holds, allowed⟩
    · rw [refuses]
      exact mediated_refused rfl rfl capabilityError_negative
  next => exact mediated_refused rfl rfl (by decide)

theorem mediated_sysWait (call : regs.rax = 7) :
    Mediated m regs (m.call (m.kernel.sysWait regs.rdi) errno) := by
  have holds := held_eq found
  rcases Kernel.sysWait_cases found with ⟨p, rights, rfl, allowed, accesses⟩ | ⟨_, code, negative, small, refuses⟩
  · exact mediated_access _ (.inr (.inr (.inl ⟨call, p, rights, holds, allowed⟩))) accesses rfl
      ⟨call, rights, holds, allowed⟩
  · rw [refuses]
    refine mediated_refused rfl rfl ?_
    obtain rfl | rfl | rfl : code = -1 ∨ code = -2 ∨ code = -3 := by omega
    all_goals decide

theorem mediated_sysWaitIrq (call : regs.rax = 8) :
    Mediated m regs (m.call (m.kernel.sysWaitIrq regs.rdi) errno) := by
  have holds := held_eq found
  rcases Kernel.sysWaitIrq_cases found with ⟨irq, rfl, accesses⟩ | ⟨_, refuses⟩
  · exact mediated_access _ (.inr (.inr (.inr (.inl ⟨call, irq, holds⟩)))) accesses rfl ⟨call, holds⟩
  · rw [refuses]
    exact mediated_refused rfl rfl (by decide)

theorem mediated_port {called : Machine paging × Outcome UInt64} (access : PortAccess)
    (call : regs.rax = 9 ∨ regs.rax = 10) (port : access.port = regs.rsi.toUInt16)
    (width : access.width = regs.rdx.toUInt8)
    (allowed : portAllowed cap regs.rsi.toUInt16 regs.rdx.toUInt8 = true)
    (size : regs.rdx.toUInt8 = 1 ∨ regs.rdx.toUInt8 = 2 ∨ regs.rdx.toUInt8 = 4)
    (made : called.1 = { m with ports := access :: m.ports }) : Mediated m regs called := by
  have right := portAllowed_iff.mp ⟨allowed, size⟩
  rw [← held_eq found] at right
  have authorised : m.Authorised regs := .inr (.inr (.inr (.inr ⟨call, right⟩)))
  refine ⟨⟨[], by rw [made]; rfl, by simp⟩, ⟨[access], by rw [made]; rfl, ?_⟩,
    fun _ unauthorised => absurd authorised unauthorised⟩
  intro other member
  rw [List.mem_singleton.mp member]
  exact ⟨call, by rw [port, width]; exact right⟩

theorem mediated_sysPortIn (call : regs.rax = 9) :
    Mediated m regs (m.sysPortIn regs.rdi regs.rsi.toUInt16 regs.rdx.toUInt8 env) := by
  have reads : ∀ {called}, portAllowed cap regs.rsi.toUInt16 regs.rdx.toUInt8 = true →
      (regs.rdx.toUInt8 = 1 ∨ regs.rdx.toUInt8 = 2 ∨ regs.rdx.toUInt8 = 4) →
      called.1 = { m with ports := .read regs.rsi.toUInt16 regs.rdx.toUInt8 :: m.ports } → Mediated m regs called :=
    fun allowed size made => mediated_port found (.read _ _) (.inl call) rfl rfl allowed size made
  unfold sysPortIn
  rw [found]
  dsimp only
  split_ifs with allowed one two four
  · exact reads allowed (.inl one) rfl
  · exact reads allowed (.inr (.inl two)) rfl
  · exact reads allowed (.inr (.inr four)) rfl
  · exact mediated_refused rfl rfl (by decide)
  · exact mediated_refused rfl rfl (by decide)

theorem mediated_sysPortOut (call : regs.rax = 10) :
    Mediated m regs (m.sysPortOut regs.rdi regs.rsi.toUInt16 regs.rdx.toUInt8 regs.r10.toUInt32) := by
  have writes : ∀ {called size value}, regs.rdx.toUInt8 = size → (size = 1 ∨ size = 2 ∨ size = 4) →
      portAllowed cap regs.rsi.toUInt16 regs.rdx.toUInt8 = true →
      called.1 = { m with ports := .write regs.rsi.toUInt16 size value :: m.ports } → Mediated m regs called := by
    intro called size value same isSize allowed made
    exact mediated_port found (.write _ size value) (.inr call) rfl same.symm allowed (same ▸ isSize) made
  unfold sysPortOut
  rw [found]
  dsimp only
  split_ifs with allowed one two four
  · exact writes one (.inl rfl) allowed rfl
  · exact writes two (.inr (.inl rfl)) allowed rfl
  · exact writes four (.inr (.inr rfl)) allowed rfl
  · exact mediated_refused rfl rfl (by decide)
  · exact mediated_refused rfl rfl (by decide)

end Calls

theorem mediated_of_readable {current : Thread} {cs : CSpaceRef} {cap : Option Capability}
    (found : m.kernel.lookup regs.rdi = some (current, cs, cap)) (readable : ¬ m.SendFaults regs env) :
    Mediated m regs (m.syscallHandler platform regs env) := by
  by_cases asked : asks regs = true
  · have selects : ∀ {number : UInt64}, regs.rax.toNat = number.toNat → regs.rax = number := UInt64.toNat_inj.mp
    simp only [asks, List.mem_cons, List.not_mem_nil, or_false, decide_eq_true_eq] at asked
    unfold syscallHandler
    rcases asked with call | call | call | call | call | call <;> rw [call]
    · exact mediated_sysSend found (selects call) readable
    · exact mediated_sysRecv found (selects call)
    · exact mediated_sysWait found (selects call)
    · exact mediated_sysWaitIrq found (selects call)
    · exact mediated_sysPortIn found (selects call)
    · exact mediated_sysPortOut found (selects call)
  · rw [Bool.not_eq_true] at asked
    exact mediated_untouched (untouched_of_handler asked) (.inl asked)

/-- The fault stops the kernel: the call returns nothing. -/
theorem unmediated_of_fault (faults : m.SendFaults regs env) :
    ¬ Mediated m regs (m.syscallHandler platform regs env) := by
  obtain ⟨call, inRange, unread, unauthorised⟩ := faults
  intro mediated
  have asked : asks regs = true := by rw [asks, call]; rfl
  obtain ⟨_, code, returned, _⟩ := mediated.refused asked unauthorised
  have panicked : (m.syscallHandler platform regs env).2 = .panicked := by
    unfold syscallHandler
    rw [call]
    simp only [sysSend, inRange, unread, if_true]
    rfl
  rw [panicked] at returned
  cases returned

/-- A call of a running thread in a state of a run from boot has only effects its capability allows, and
without one returns an error and changes nothing, except that an unauthorised send from an address the
kernel cannot read does not return. -/
theorem mediated_iff {args : BootArgs paging} {booted : Machine paging} {history : List (Machine paging × Act)}
    (started : boot platform args = some booted) (run : Base.Run (step platform) booted history m)
    (running : m.kernel.cpu.isRunning = true) (regs : Registers) (env : CallEnv) :
    Mediated m regs (m.syscallHandler platform regs env) ↔ ¬ m.SendFaults regs env := by
  obtain ⟨image, acts, kernelRun⟩ := kernelRun_of_run started run
  obtain ⟨current, cs, _, found⟩ := (Kernel.populated_of_run kernelRun).lookup_running
    (Kernel.orderly_of_run kernelRun) running regs.rdi
  exact ⟨fun mediated faults => unmediated_of_fault faults mediated, mediated_of_readable found⟩

/-- `init` holds nothing at handle 0 and sends from an address that is not mapped. -/
theorem send_faults_unmediated : ∃ booted history m, boot (samplePlatform none) sampleArgs = some booted ∧
    Base.Run (step (samplePlatform none)) booted history m ∧ m.kernel.cpu.isRunning = true ∧ m.held 0 = none ∧
    ¬ Mediated m ⟨0, 0x1000, 0, 0, 0, 0, 4⟩
      (m.syscallHandler (samplePlatform none) ⟨0, 0x1000, 0, 0, 0, 0, 4⟩ { sampleEnv with message := none }) := by
  obtain ⟨booted, history, m, started, run, _, checked⟩ := sample_run none []
    (fun m => m.kernel.cpu.isRunning && m.held 0 == none) (by decide +kernel)
  rw [Bool.and_eq_true, beq_iff_eq] at checked
  refine ⟨booted, history, m, started, run, checked.1, checked.2, unmediated_of_fault ⟨rfl, by decide, rfl, ?_⟩⟩
  simp [Authorised, checked.2]

/-- The same call from a readable address, and a wait for the keyboard interrupt. -/
theorem mediated_sample : ∃ booted history m, boot (samplePlatform none) sampleArgs = some booted ∧
    Base.Run (step (samplePlatform none)) booted history m ∧ m.kernel.cpu.isRunning = true ∧
    Mediated m ⟨0, 0x1000, 0, 0, 0, 0, 4⟩
      (m.syscallHandler (samplePlatform none) ⟨0, 0x1000, 0, 0, 0, 0, 4⟩ sampleEnv) ∧
    Mediated m ⟨1, 0, 0, 0, 0, 0, 8⟩
      (m.syscallHandler (samplePlatform none) ⟨1, 0, 0, 0, 0, 0, 8⟩ sampleEnv) := by
  obtain ⟨booted, history, m, started, run, _, running⟩ := sample_run none [] (fun m => m.kernel.cpu.isRunning)
    (by decide +kernel)
  refine ⟨booted, history, m, started, run, running, ?_, ?_⟩
  · exact (mediated_iff started run running _ _).mpr (by simp [SendFaults, sampleEnv])
  · exact (mediated_iff started run running _ _).mpr (by simp [SendFaults])

end Machine

end ElseOS
