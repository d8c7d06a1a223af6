import ElseOS.Syscall.Mapping
import ElseOS.Syscall.Mediation
import ElseOS.Task.Termination

/-! Calls that report a failure and calls that have done something.

A call that grants a capability returns the handle it found free, and the first handle is
the number by which the two memory grants report that they failed. -/

set_option autoImplicit false

namespace ElseOS.Machine

variable {paging : Paging}

/-- The values by which each call reports a failure. -/
def reportsFailure (rax value : UInt64) : Bool :=
  match rax.toNat with
  | 9 | 10 | 15 => value = u64Max
  | 11 | 13 | 14 => value = 0
  -- negative when read as `isize`
  | _ => 2 ^ 63 ≤ value.toNat

def Atomic (m : Machine paging) (rax : UInt64) (called : Machine paging × Outcome UInt64) : Prop :=
  ∀ value, called.2 = .done value → reportsFailure rax value = true → called.1 = m

def freeHandle (m : Machine paging) : Option UInt64 :=
  (m.kernel.lookup 0).map fun found => UInt64.ofNat (m.kernel.cspaces found.2.1).firstFree

/-- What a call that passes all its checks and creates or maps something returns. -/
def granted (platform : Platform) (m : Machine paging) (regs : Registers) (env : CallEnv) : Option UInt64 :=
  match regs.rax.toNat with
  | 3 => m.freeHandle
  | 6 =>
    if userRange regs.rdi regs.rsi.toNat then
      env.text.bind fun name =>
        if Base.Utf8.valid name then
          (platform.findFile name).bind fun image =>
            (Elf.load image m.kernel.hardware.cr3 m.memory).2.bind fun _ => m.freeHandle
        else none
    else none
  | 11 =>
    match m.kernel.lookup regs.rdi with
    | some (current, _, some (.memoryMap start len)) =>
      let actual := actualRange start len regs.rsi regs.rdx
      if mapAllowed start len actual then
        current.cr3.bind fun cr3 =>
          (mapWindow cr3 (windowAddr regs.rdi) actual.1 actual.2 m.memory).2.map fun _ => windowAddr regs.rdi
      else none
    | _ => none
  | 13 =>
    if regs.rdi > 4096 then none
    else match m.memory.allocator.allocateFrame with
      | some (_, some _) => m.freeHandle
      | _ => none
  | 14 =>
    match m.dmaPool.allocateDmaFrames m.memory.ram platform.hhdmOffset regs.rdi with
    | (_, _, some (some _)) => m.freeHandle
    | _ => none
  | 16 =>
    if regs.rdi ≥ 0x0000800000000000 ∨ regs.rsi ≥ 0x0000800000000000 then none
    else match m.kernel.scheduler.current with
      | some ⟨_, _, _, _, some _, some _, some _⟩ => some m.kernel.nextUserId
      | _ => none
  | _ => none

inductive Ends (m : Machine paging) (rax : UInt64) (called : Machine paging × Outcome UInt64) :
    Option UInt64 → Prop where
  | refused : Atomic m rax called → Ends m rax called none
  | carriedOut {value : UInt64} : called.2 = .done value → (reportsFailure rax value = true → called.1 ≠ m) →
      Ends m rax called (some value)

variable {platform : Platform} {m : Machine paging} {regs : Registers} {env : CallEnv} {rax : UInt64}
  {called : Machine paging × Outcome UInt64}

theorem Ends.unambiguous_iff {returned : Option UInt64} (ends : Ends m rax called returned) :
    Atomic m rax called ↔ ∀ value, returned = some value → reportsFailure rax value = false := by
  cases ends with
  | refused atomic => exact iff_of_true atomic (by simp)
  | @carriedOut value done changes =>
    constructor
    · intro atomic other same
      cases same
      by_contra failure
      have failure := Bool.eq_true_of_not_eq_false failure
      exact changes failure (atomic value done failure)
    · intro unambiguous other finished failure
      rw [done] at finished
      cases finished
      rw [unambiguous value rfl] at failure
      cases failure

theorem atomic_same (same : called.1 = m) : Atomic m rax called := fun _ _ _ => same

theorem atomic_panic (m after : Machine paging) : Atomic m rax after.panic := by
  intro value done
  cases done

/-- A call of the scheduler that refuses with its state unchanged, or returns 0, or does not return yet. -/
theorem atomic_call {α : Type} {result : α → UInt64} {answer : Kernel × Outcome α}
    (zero : reportsFailure rax 0 = false)
    (settled : ∀ value, answer.2 = .done value → result value = 0 ∨ answer.1 = m.kernel) :
    Atomic m rax (m.call answer result) := by
  intro value done failure
  obtain ⟨kernel, outcome⟩ := answer
  cases outcome with
  | done answered =>
    cases done
    rcases settled answered rfl with none | same
    · rw [none, zero] at failure
      cases failure
    · dsimp only at same
      rw [call, same]
  | blocked => cases done
  | exited => cases done
  | panicked => cases done

/-! ## Calls that create nothing -/

theorem atomic_sysLog (ptr len : UInt64) : Atomic m rax (m.sysLog ptr len env) := by
  unfold sysLog
  split
  · split
    · exact atomic_panic m m
    · split <;> exact atomic_same rfl
  · exact atomic_same rfl

theorem sysSend_settled (k : Kernel) (handle : UInt64) (msg : Message) (answer : Except CapError Unit)
    (done : (k.sysSend handle msg).2 = .done answer) : answer = .ok () ∨ (k.sysSend handle msg).1 = k := by
  cases found : k.lookup handle with
  | none => simp [Kernel.sysSend, found] at done
  | some caller =>
    obtain ⟨current, cs, held⟩ := caller
    rcases Kernel.sysSend_cases found msg with ⟨ep, rights, _, _, sent⟩ | ⟨_, reason, refused⟩
    · -- past the check a send completes or blocks, and never fails
      left
      rw [sent] at done
      unfold Kernel.sendOn at done
      dsimp only at done
      split at done
      · cases done
        rfl
      · split at done
        · cases done
        · cases done
          rfl
    · rw [refused]
      exact .inr rfl

theorem atomic_sysSend (call : rax.toNat = 4) (handle msgPtr : UInt64) :
    Atomic m rax (m.sysSend handle msgPtr env) := by
  unfold sysSend
  split
  · split
    · exact atomic_panic m m
    · apply atomic_call
      · simp [reportsFailure, call]
      · intro answer done
        rcases sysSend_settled m.kernel handle _ answer done with rfl | same
        · exact .inl rfl
        · exact .inr same
  · exact atomic_same rfl

theorem sysRecv_settled (k : Kernel) (handle : UInt64) (answer : Except CapError Message)
    (done : (k.sysRecv handle).2 = .done answer) : (∃ msg, answer = .ok msg) ∨ (k.sysRecv handle).1 = k := by
  cases found : k.lookup handle with
  | none => simp [Kernel.sysRecv, found] at done
  | some caller =>
    obtain ⟨current, cs, held⟩ := caller
    rcases Kernel.sysRecv_cases found with ⟨ep, rights, _, _, received⟩ | ⟨_, reason, refused⟩
    · -- the same holds for a receive
      left
      rw [received] at done
      unfold Kernel.recvOn at done
      dsimp only at done
      split at done
      · cases done
        exact ⟨_, rfl⟩
      · split at done
        · cases done
        · cases done
          exact ⟨_, rfl⟩
    · rw [refused]
      exact .inr rfl

theorem atomic_sysRecv (call : rax.toNat = 5) (handle msgPtr : UInt64) :
    Atomic m rax (m.sysRecv handle msgPtr env) := by
  have zero : reportsFailure rax 0 = false := by simp [reportsFailure, call]
  unfold sysRecv
  split
  · split
    · split
      · intro value done failure
        cases done
        rw [zero] at failure
        cases failure
      · exact atomic_panic _ _
    · apply atomic_call zero
      intro answer done
      rcases sysRecv_settled m.kernel handle answer done with ⟨msg, rfl⟩ | same
      · exact .inl rfl
      · exact .inr same
  · exact atomic_same rfl

theorem atomic_sysWait (call : rax.toNat = 7) (handle : UInt64) :
    Atomic m rax (m.call (m.kernel.sysWait handle) errno) := by
  apply atomic_call
  · simp [reportsFailure, call]
  · intro answer done
    unfold Kernel.sysWait at done ⊢
    split at done
    · cases done
    · dsimp only at done ⊢
      split at done
      next allowed =>
        split at done
        · cases done
          exact .inl rfl
        · cases done
      next denied =>
        rw [if_neg denied]
        exact .inr rfl
    · exact .inr rfl

theorem atomic_sysWaitIrq (call : rax.toNat = 8) (handle : UInt64) :
    Atomic m rax (m.call (m.kernel.sysWaitIrq handle) errno) := by
  apply atomic_call
  · simp [reportsFailure, call]
  · intro answer done
    unfold Kernel.sysWaitIrq at done ⊢
    split at done
    · cases done
    · dsimp only at done ⊢
      split at done
      · cases done
        exact .inl rfl
      · cases done
    · exact .inr rfl

theorem atomic_value {after : Machine paging} {value : UInt64} (success : reportsFailure rax value = false) :
    Atomic m rax (after, .done value) := by
  intro other done failure
  cases done
  rw [success] at failure
  cases failure

theorem atomic_sysPortIn (call : rax.toNat = 9) (handle : UInt64) (port : UInt16) (size : UInt8) :
    Atomic m rax (m.sysPortIn handle port size env) := by
  have small (value : UInt64) (bound : value.toNat < 2 ^ 32) : reportsFailure rax value = false := by
    have different : value ≠ u64Max := by
      rintro rfl
      exact absurd bound (by decide)
    simp [reportsFailure, call, different]
  unfold sysPortIn
  split
  · exact atomic_panic m m
  · dsimp only
    split_ifs
    · apply atomic_value
      apply small
      have bound := env.portValue.toUInt8.toNat_lt
      rw [UInt8.toNat_toUInt64]
      omega
    · apply atomic_value
      apply small
      have bound := env.portValue.toUInt16.toNat_lt
      rw [UInt16.toNat_toUInt64]
      omega
    · apply atomic_value
      apply small
      rw [UInt32.toNat_toUInt64]
      exact env.portValue.toNat_lt
    · exact atomic_same rfl
    · exact atomic_same rfl

theorem atomic_sysPortOut (call : rax.toNat = 10) (handle : UInt64) (port : UInt16) (size : UInt8) (val : UInt32) :
    Atomic m rax (m.sysPortOut handle port size val) := by
  have zero : reportsFailure rax 0 = false := by simp [reportsFailure, call, u64Max]
  unfold sysPortOut
  split
  · exact atomic_panic m m
  · split_ifs
    · exact atomic_value zero
    · exact atomic_value zero
    · exact atomic_value zero
    · exact atomic_same rfl
    · exact atomic_same rfl

theorem atomic_sysFramebufferInfo (infoPtr : UInt64) : Atomic m rax (m.sysFramebufferInfo platform infoPtr env) := by
  unfold sysFramebufferInfo
  split
  · split
    · split
      · exact atomic_same rfl
      · exact atomic_panic m m
    · exact atomic_same rfl
  · exact atomic_same rfl

theorem atomic_sysCapInfo (handle : UInt64) : Atomic m rax (m.sysCapInfo handle) := by
  unfold sysCapInfo
  split
  · exact atomic_panic m m
  all_goals exact atomic_same rfl

/-! ## Calls that do -/

section

variable {current : Thread} {cs : CSpaceRef} {held : Option Capability}

theorem freeHandle_eq (found : m.kernel.lookup 0 = some (current, cs, held)) :
    m.freeHandle = some (UInt64.ofNat (m.kernel.cspaces cs).firstFree) := by
  rw [freeHandle, found]
  rfl

theorem ends_sysEndpointCreate (found : m.kernel.lookup 0 = some (current, cs, held)) :
    Ends m rax (m.call m.kernel.sysEndpointCreate UInt64.ofNat) m.freeHandle := by
  rw [freeHandle_eq found]
  unfold Kernel.sysEndpointCreate
  rw [found]
  dsimp only
  constructor
  · rw [← (m.kernel.cspaces cs).insert_handle (.endpoint m.kernel.nextEndpoint .ALL)]
    rfl
  · intro _ same
    have grown : m.kernel.nextEndpoint + 1 = m.kernel.nextEndpoint :=
      congrArg (fun m : Machine paging => m.kernel.nextEndpoint) same
    exact Nat.succ_ne_self _ grown

theorem ends_grantMemory (found : m.kernel.lookup 0 = some (current, cs, held)) (base : Machine paging)
    (start len : UInt64) :
    Ends m rax (base.call (m.kernel.grantMemory start len) UInt64.ofNat) m.freeHandle := by
  rw [freeHandle_eq found]
  unfold Kernel.grantMemory
  rw [found]
  dsimp only
  constructor
  · rw [← (m.kernel.cspaces cs).insert_handle (.memoryMap start len)]
    rfl
  · intro _ same
    have spaces : Function.update m.kernel.cspaces cs ((m.kernel.cspaces cs).insert (.memoryMap start len)).1 =
        m.kernel.cspaces := congrArg (fun m : Machine paging => m.kernel.cspaces) same
    have inserted := congrFun spaces cs
    rw [Function.update_self] at inserted
    exact (m.kernel.cspaces cs).insert_ne _ inserted

theorem ends_sysFrameAlloc (call : regs.rax.toNat = 13) (found : m.kernel.lookup 0 = some (current, cs, held)) :
    Ends m regs.rax (m.sysFrameAlloc regs.rdi) (granted platform m regs env) := by
  simp only [granted, call]
  unfold sysFrameAlloc
  by_cases large : regs.rdi > 4096
  · rw [if_pos large, if_pos large]
    exact .refused (atomic_same rfl)
  · rw [if_neg large, if_neg large]
    cases searched : m.memory.allocator.allocateFrame with
    | none =>
      simp only [Memory.allocateFrame, searched]
      exact .refused (atomic_panic _ _)
    | some result =>
      obtain ⟨allocator, _ | frame⟩ := result
      · -- a search without success has written no bit
        obtain rfl := BitmapAllocator.allocateFrame_none searched
        simp only [Memory.allocateFrame, searched]
        exact .refused (atomic_same rfl)
      · simp only [Memory.allocateFrame, searched]
        exact ends_grantMemory found _ frame 4096

theorem ends_sysDmaAlloc (call : regs.rax.toNat = 14) (found : m.kernel.lookup 0 = some (current, cs, held)) :
    Ends m regs.rax (m.sysDmaAlloc platform regs.rdi) (granted platform m regs env) := by
  simp only [granted, call]
  unfold sysDmaAlloc
  rcases allocated : m.dmaPool.allocateDmaFrames m.memory.ram platform.hhdmOffset regs.rdi
    with ⟨pool, ram, _ | _ | phys⟩
  · exact .refused (atomic_panic _ _)
  · -- a refused request has moved nothing
    have same : pool = m.dmaPool ∧ ram = m.memory.ram := by
      unfold DmaPool.allocateDmaFrames at allocated
      dsimp only at allocated
      split at allocated
      · split at allocated
        · cases valid : PhysAddr.new (m.dmaPool.phys + m.dmaPool.used) <;> simp [valid] at allocated
        · cases allocated
      · cases allocated
        exact ⟨rfl, rfl⟩
    obtain ⟨rfl, rfl⟩ := same
    exact .refused (atomic_same rfl)
  · exact ends_grantMemory found _ phys regs.rdi

theorem ends_sysThreadSpawn (call : regs.rax.toNat = 16) :
    Ends m regs.rax (m.sysThreadSpawn regs.rdi regs.rsi env) (granted platform m regs env) := by
  simp only [granted, call]
  unfold sysThreadSpawn
  by_cases bad : regs.rdi ≥ 0x0000800000000000 ∨ regs.rsi ≥ 0x0000800000000000
  · rw [if_pos bad, if_pos bad]
    exact .refused (atomic_same rfl)
  · rw [if_neg bad, if_neg bad]
    unfold Kernel.spawnThread
    cases m.kernel.scheduler.current with
    | none => exact .refused (atomic_panic _ _)
    | some current =>
      obtain ⟨tid, id, state, stackBase, cr3, cspace, processState⟩ := current
      -- only a thread with an address space, a capability space and a process can spawn
      cases cr3 <;> cases cspace <;> cases processState <;> try exact .refused (atomic_panic _ _)
      constructor
      · rfl
      · intro _ same
        have grown : m.kernel.nextTid + 1 = m.kernel.nextTid :=
          congrArg (fun m : Machine paging => m.kernel.nextTid) same
        exact Nat.succ_ne_self _ grown

theorem mapRange_changes (m : Machine paging) (callerCr3 : Option UInt64) (actual : UInt64 × UInt64)
    (returned : (m.mapRange callerCr3 0 actual).2 ≠ .panicked) : (m.mapRange callerCr3 0 actual).1 ≠ m := by
  intro same
  obtain ⟨cr3, _, opened⟩ := mapRange_finishes returned
  have some : 0 < windowPages 0 actual.2 := by
    have lowest : containingAddress 0 ≤ containingAddress (0 + actual.2 - 1) := UInt64.zero_le
    rw [windowPages, pagesInclusive, if_pos lowest]
    exact Nat.succ_pos _
  obtain ⟨before, frame, now, _⟩ := opened 0 some
  rw [same, before] at now
  cases now

theorem ends_mapRange (call : rax.toNat = 11) (callerCr3 : Option UInt64) (virtAddr : UInt64)
    (actual : UInt64 × UInt64) :
    Ends m rax (m.mapRange callerCr3 virtAddr actual)
      (callerCr3.bind fun cr3 => (mapWindow cr3 virtAddr actual.1 actual.2 m.memory).2.map fun _ => virtAddr) := by
  have changes := m.mapRange_changes callerCr3 actual
  cases callerCr3 with
  | none => exact .refused (atomic_panic _ _)
  | some cr3 =>
    rw [Option.bind_some]
    rcases ran : mapWindow cr3 virtAddr actual.1 actual.2 m.memory with ⟨memory, _ | last⟩
    · have stopped : m.mapRange (some cr3) virtAddr actual = { m with memory := memory }.panic := by
        rw [mapRange, ran]
      rw [stopped]
      exact .refused (atomic_panic _ _)
    · have finished : m.mapRange (some cr3) virtAddr actual = ({ m with memory := memory }, .done virtAddr) := by
        rw [mapRange, ran]
      apply Ends.carriedOut
      · rw [finished]
      · intro failure
        -- the window address is the failure value only where it is 0
        obtain rfl : virtAddr = 0 := by simpa [reportsFailure, call] using failure
        apply changes
        rw [finished]
        simp

theorem ends_sysMapPhys (call : regs.rax.toNat = 11) :
    Ends m regs.rax (m.sysMapPhys regs.rdi regs.rsi regs.rdx) (granted platform m regs env) := by
  simp only [granted, call]
  unfold sysMapPhys
  rcases m.kernel.lookup regs.rdi with _ | ⟨current, cs, held⟩
  · exact .refused (atomic_panic _ _)
  · match held with
    | some (.memoryMap start len) =>
      dsimp only
      split
      · exact ends_mapRange call current.cr3 _ _
      · exact .refused (atomic_same rfl)
    | none | some (.endpoint _ _) | some (.process _ _) | some (.interrupt _) | some (.portIo _ _ _) =>
      exact .refused (atomic_same rfl)

/-- The child's space is new, so the caller's first free handle is still free. -/
theorem spawnChild_handle {k : Kernel} {epHandle : UInt64} (found : k.lookup epHandle = some (current, cs, held))
    (old : cs ≠ k.nextCSpace) (entryPoint cr3 stackBase : UInt64) :
    (k.spawnChild epHandle entryPoint cr3 stackBase).2 = .done (k.cspaces cs).firstFree := by
  unfold Kernel.spawnChild
  rw [found]
  dsimp only
  rw [CSpace.insert_handle]
  congr 2
  split
  · exact (Function.update_of_ne old _ _).trans (Function.update_of_ne old _ _)
  · exact Function.update_of_ne old _ _

theorem ends_sysSpawn (call : regs.rax.toNat = 6) (found : m.kernel.lookup 0 = some (current, cs, held))
    (old : cs < m.kernel.nextCSpace) :
    Ends m regs.rax (m.sysSpawn platform regs.rdi regs.rsi regs.rdx env) (granted platform m regs env) := by
  simp only [granted, call]
  unfold sysSpawn
  split
  · cases env.text with
    | none => exact .refused (atomic_panic _ _)
    | some name =>
      dsimp only [Option.bind_some]
      split
      · have called : m.kernel.lookup regs.rdx = some (current, cs, (m.kernel.cspaces cs).get regs.rdx.toNat) := by
          obtain ⟨isCurrent, has, _⟩ := Kernel.lookup_eq found
          simp [Kernel.lookup, isCurrent, has]
        rw [called]
        cases platform.findFile name with
        | none => exact .refused (atomic_same rfl)
        | some image =>
          dsimp only [Option.bind_some]
          rcases Elf.load image m.kernel.hardware.cr3 m.memory with ⟨memory, _ | ⟨entryPoint, cr3⟩⟩
          · exact .refused (atomic_panic _ _)
          · rw [Option.bind_some, freeHandle_eq found]
            dsimp only
            constructor
            · rw [Machine.call, spawnChild_handle called (Nat.ne_of_lt old)]
              rfl
            · -- a spawn always uses up a process number
              intro _ same
              have grown : (m.kernel.spawnChild regs.rdx entryPoint cr3 env.stackBase).1.nextProcess =
                m.kernel.nextProcess :=
                congrArg (fun m : Machine paging => m.kernel.nextProcess) same
              have counted := congrArg Prod.snd (Kernel.registry_spawnChild entryPoint cr3 env.stackBase called)
              exact Nat.succ_ne_self _ (counted.symm.trans grown)
      · exact .refused (atomic_same rfl)
  · exact .refused (atomic_same rfl)

end

/-! ## Every call -/

/-- A call of a running thread reports a failure only when it has changed nothing, exactly when what it
returns for its work is none of the values it reports failures by. -/
theorem atomic_iff {args : BootArgs paging} {booted : Machine paging} {history : List (Machine paging × Act)}
    (started : boot platform args = some booted) (run : Base.Run (step platform) booted history m)
    (running : m.kernel.cpu.isRunning = true) (regs : Registers) (env : CallEnv) :
    Atomic m regs.rax (m.syscallHandler platform regs env) ↔
      ∀ value, granted platform m regs env = some value → reportsFailure regs.rax value = false := by
  apply Ends.unambiguous_iff
  obtain ⟨image, acts, scheduled⟩ := kernelRun_of_run started run
  have populated := Kernel.populated_of_run scheduled
  obtain ⟨current, cs, isCurrent, found⟩ := populated.lookup_running (Kernel.orderly_of_run scheduled) running 0
  have old : cs < m.kernel.nextCSpace := by
    apply populated.caller_lt
    rw [Kernel.caller, isCurrent]
    exact (Kernel.lookup_eq found).2.1
  -- most calls create and map nothing; then all that counts is what a failure leaves
  have nothing {called : Machine paging × Outcome UInt64} (none : granted platform m regs env = none)
      (atomic : Atomic m regs.rax called) : Ends m regs.rax called (granted platform m regs env) := by
    rw [none]
    exact .refused atomic
  unfold syscallHandler
  split
  next call =>
    apply nothing (by simp [granted, call])
    exact atomic_call (by simp [reportsFailure, call]) fun _ _ => .inl rfl
  next call =>
    apply nothing (by simp [granted, call])
    intro value done
    cases done
  next call => exact nothing (by simp [granted, call]) (atomic_sysLog _ _)
  next call =>
    have same : granted platform m regs env = m.freeHandle := by simp [granted, call]
    rw [same]
    exact ends_sysEndpointCreate found
  next call => exact nothing (by simp [granted, call]) (atomic_sysSend call _ _)
  next call => exact nothing (by simp [granted, call]) (atomic_sysRecv call _ _)
  next call => exact ends_sysSpawn call found old
  next call => exact nothing (by simp [granted, call]) (atomic_sysWait call _)
  next call => exact nothing (by simp [granted, call]) (atomic_sysWaitIrq call _)
  next call => exact nothing (by simp [granted, call]) (atomic_sysPortIn call _ _ _)
  next call => exact nothing (by simp [granted, call]) (atomic_sysPortOut call _ _ _ _)
  next call => exact ends_sysMapPhys call
  next call => exact nothing (by simp [granted, call]) (atomic_sysFramebufferInfo _)
  next call => exact ends_sysFrameAlloc call found
  next call => exact ends_sysDmaAlloc call found
  next call => exact nothing (by simp [granted, call]) (atomic_sysCapInfo _)
  next call => exact ends_sysThreadSpawn call
  next =>
    apply nothing _ (atomic_same rfl)
    unfold granted
    split <;> first | contradiction | rfl

/-- The first handle of `init` is free after boot: its first frame is allocated, and reported as a failure. -/
theorem frameAlloc_ambiguous : ∃ booted history m, boot (samplePlatform none) sampleArgs = some booted ∧
    Base.Run (step (samplePlatform none)) booted history m ∧ history.map Prod.snd = sampleStart ∧
    (m.syscallHandler (samplePlatform none) ⟨4096, 0, 0, 0, 0, 0, 13⟩ sampleEnv).2 = .done 0 ∧
    ¬ Atomic m 13 (m.syscallHandler (samplePlatform none) ⟨4096, 0, 0, 0, 0, 0, 13⟩ sampleEnv) := by
  obtain ⟨booted, history, m, started, run, labels, checked⟩ := sample_run none []
    (fun m =>
      let call := m.syscallHandler (samplePlatform none) ⟨4096, 0, 0, 0, 0, 0, 13⟩ sampleEnv
      decide (call.2 = .done 0 ∧ call.1.memory.allocator ≠ m.memory.allocator)) (by decide +kernel)
  obtain ⟨returned, changed⟩ := of_decide_eq_true checked
  refine ⟨booted, history, m, started, run, labels, returned, fun atomic => ?_⟩
  have same := atomic 0 returned (by decide)
  exact changed (by rw [same])

/-- Creating an endpoint returns 0 too, which is none of its failure values. -/
theorem endpointCreate_atomic : ∃ booted history m, boot (samplePlatform none) sampleArgs = some booted ∧
    Base.Run (step (samplePlatform none)) booted history m ∧ history.map Prod.snd = sampleStart ∧
    (m.syscallHandler (samplePlatform none) ⟨0, 0, 0, 0, 0, 0, 3⟩ sampleEnv).2 = .done 0 ∧
    Atomic m 3 (m.syscallHandler (samplePlatform none) ⟨0, 0, 0, 0, 0, 0, 3⟩ sampleEnv) := by
  obtain ⟨booted, history, m, started, run, labels, checked⟩ := sample_run none []
    (fun m => decide (m.kernel.cpu.isRunning = true ∧
      (m.syscallHandler (samplePlatform none) ⟨0, 0, 0, 0, 0, 0, 3⟩ sampleEnv).2 = .done 0 ∧
      granted (samplePlatform none) m ⟨0, 0, 0, 0, 0, 0, 3⟩ sampleEnv = some 0)) (by decide +kernel)
  obtain ⟨running, returned, grant⟩ := of_decide_eq_true checked
  refine ⟨booted, history, m, started, run, labels, returned, ?_⟩
  refine (atomic_iff started run running ⟨0, 0, 0, 0, 0, 0, 3⟩ sampleEnv).mpr fun value same => ?_
  rw [grant] at same
  cases same
  decide

end ElseOS.Machine
