import ElseOS.Syscall.Windows

/-! The addresses behind a window of `SYS_MAP_PHYS`.

The window begins at a page boundary, and so does the frame of the first address. An
offset into the window is the offset into the request only when the request does so too. -/

set_option autoImplicit false

namespace ElseOS

open Memory (pageAt pageAt_toNat)

variable {paging : Paging}

def Memory.translate (mem : Memory paging) (cr3 : UInt64) (addr : Nat) : Option Nat :=
  if addr < 2 ^ 64 then
    (mem.lookup cr3 (containingAddress (UInt64.ofNat addr))).map fun entry => entry.1.toNat + addr % 4096
  else none

namespace Machine

variable {m : Machine paging} {cr3 : UInt64}

def Linear (mem : Memory paging) (cr3 : UInt64) (virt phys length : Nat) : Prop :=
  ∀ k < length, mem.translate cr3 (virt + k) = some (phys + k)

theorem containingAddress_window {virtAddr : UInt64} {k : Nat} (aligned : virtAddr.toNat % 4096 = 0)
    (inside : virtAddr.toNat + k < 2 ^ 64) :
    containingAddress (UInt64.ofNat (virtAddr.toNat + k)) = pageAt (containingAddress virtAddr) (k / 4096) := by
  have block := containingAddress_toNat virtAddr
  apply UInt64.toNat_inj.mp
  rw [pageAt_toNat (by omega), containingAddress_toNat, UInt64.toNat_ofNat', Nat.mod_eq_of_lt inside]
  omega

theorem lt_windowPages {virtAddr length : UInt64} {k : Nat} (aligned : virtAddr.toNat % 4096 = 0)
    (room : virtAddr.toNat + length.toNat ≤ 2 ^ 64) (inside : k < length.toNat) :
    k / 4096 < windowPages virtAddr length := by
  have one : (1 : UInt64).toNat = 1 := rfl
  have last : (virtAddr + length - 1).toNat = virtAddr.toNat + length.toNat - 1 := by
    rw [UInt64.toNat_sub, UInt64.toNat_add, one]
    omega
  have firstBlock := containingAddress_toNat virtAddr
  have lastBlock := containingAddress_toNat (virtAddr + length - 1)
  rw [last] at lastBlock
  have ordered : containingAddress virtAddr ≤ containingAddress (virtAddr + length - 1) := by
    rw [UInt64.le_iff_toNat_le]
    omega
  rw [windowPages, pagesInclusive, if_pos ordered, UInt64.toNat_div, UInt64.toNat_sub_of_le _ _ ordered, firstBlock,
    lastBlock, PAGE_SIZE_toNat]
  omega

/-- What an address of the window translates to once the frames are mapped. -/
theorem translate_window {mem : Memory paging} {virtAddr phys length : UInt64} {k : Nat}
    (aligned : virtAddr.toNat % 4096 = 0) (room : virtAddr.toNat + length.toNat ≤ 2 ^ 64) (inside : k < length.toNat)
    (mapped : ∀ i < windowPages virtAddr length, Made phys i (mem.lookup cr3 (pageAt (containingAddress virtAddr) i))) :
    mem.translate cr3 (virtAddr.toNat + k) = some (phys.toNat / 4096 * 4096 + k) := by
  have small : virtAddr.toNat + k < 2 ^ 64 := by omega
  obtain ⟨frame, entry, address⟩ := mapped (k / 4096) (lt_windowPages aligned room inside)
  have offset : (virtAddr.toNat + k) % 4096 = k % 4096 := by omega
  rw [Memory.translate, if_pos small, containingAddress_window aligned small, entry, Option.map_some, address, offset,
    Nat.add_assoc, Nat.div_add_mod']

theorem mapRange_returns {callerCr3 : Option UInt64} {virtAddr value : UInt64} {actual : UInt64 × UInt64}
    (returned : (m.mapRange callerCr3 virtAddr actual).2 = .done value) : value = virtAddr := by
  unfold mapRange at returned
  split at returned
  next => cases returned
  next =>
    split at returned
    next => cases returned
    next =>
      cases returned
      rfl

/-- For every call that passes the check, asks for something and returns: the window shows the
request exactly when the request begins at a frame boundary and the window ends below the end
of the address space. -/
theorem mapPhys_linear_iff (platform : Platform) {handle physAddr length r10 r8 r9 start len virtAddr : UInt64}
    {env : CallEnv} (holds : m.HoldsMemory handle start len)
    (allowed : mapAllowed start len (actualRange start len physAddr length) = true)
    (nonempty : 0 < (actualRange start len physAddr length).2.toNat)
    (returned : (m.syscallHandler platform ⟨handle, physAddr, length, r10, r8, r9, 11⟩ env).2 = .done virtAddr) :
    let after := (m.syscallHandler platform ⟨handle, physAddr, length, r10, r8, r9, 11⟩ env).1
    let actual := actualRange start len physAddr length
    (∃ cr3, m.callerCr3 = some cr3 ∧ Linear after.memory cr3 virtAddr.toNat actual.1.toNat actual.2.toNat) ↔
      actual.1.toNat % 4096 = 0 ∧ virtAddr.toNat + actual.2.toNat ≤ 2 ^ 64 := by
  have served : m.syscallHandler platform ⟨handle, physAddr, length, r10, r8, r9, 11⟩ env =
      m.mapRange m.callerCr3 (windowAddr handle) (actualRange start len physAddr length) := by
    rcases m.sysMapPhys_cases handle physAddr length with ⟨other, otherLen, alsoHolds, _, same⟩ | ⟨_, refused⟩
    · obtain ⟨rfl, rfl⟩ := holds.unique alsoHolds
      exact same
    · rw [refused start len holds] at allowed
      cases allowed
  rw [served] at returned ⊢
  generalize actualRange start len physAddr length = actual at *
  obtain rfl := mapRange_returns returned
  have aligned := windowAddr_aligned handle
  have finished : (m.mapRange m.callerCr3 (windowAddr handle) actual).2 ≠ .panicked := by
    rw [returned]
    exact nofun
  obtain ⟨cr3, caller, mapped⟩ := mapRange_finishes finished
  constructor
  · rintro ⟨space, isCaller, linear⟩
    obtain rfl := Option.some.inj (caller.symm.trans isCaller)
    have room : (windowAddr handle).toNat + actual.2.toNat ≤ 2 ^ 64 := by
      -- the last address of the window has a translation
      have last := linear (actual.2.toNat - 1) (by omega)
      rw [Memory.translate] at last
      split at last
      next small => omega
      next => cases last
    have first := linear 0 nonempty
    rw [translate_window aligned room nonempty fun i inside => (mapped i inside).2] at first
    have same := Option.some.inj first
    exact ⟨by omega, room⟩
  · rintro ⟨whole, room⟩
    refine ⟨cr3, caller, ?_⟩
    intro k inside
    rw [translate_window aligned room inside fun i inside => (mapped i inside).2]
    congr 1
    omega

/-- `init` maps all of a piece of the DMA pool. -/
theorem mapPhys_linear_whole : ∃ booted history m cr3, boot (samplePlatform none) sampleArgs = some booted ∧
    Base.Run (step (samplePlatform none)) booted history m ∧
    history.map Prod.snd = sampleStart ++ [sampleCall 14 8192 0 0] ∧
    (m.syscallHandler (samplePlatform none) ⟨0, u64Max, 0, 0, 0, 0, 11⟩ sampleEnv).2 = .done 0x80000000 ∧
    m.callerCr3 = some cr3 ∧
    Linear (m.syscallHandler (samplePlatform none) ⟨0, u64Max, 0, 0, 0, 0, 11⟩ sampleEnv).1.memory cr3
      0x80000000 0x100000 8192 := by
  obtain ⟨booted, history, m, started, run, calls, checked⟩ := sample_run none [sampleCall 14 8192 0 0]
    (fun m =>
      decide ((m.kernel.lookup 0).map (fun found => found.2.2) = some (some (.memoryMap 0x100000 8192)) ∧
        (m.syscallHandler (samplePlatform none) ⟨0, u64Max, 0, 0, 0, 0, 11⟩ sampleEnv).2 = .done 0x80000000))
    (by decide +kernel)
  obtain ⟨held, returned⟩ := of_decide_eq_true checked
  obtain ⟨⟨current, cs, _⟩, found, rfl⟩ := Option.map_eq_some_iff.mp held
  obtain ⟨cr3, caller, linear⟩ := (mapPhys_linear_iff (samplePlatform none) ⟨current, cs, found⟩ (by decide) (by decide)
    returned).mpr (by decide)
  exact ⟨booted, history, m, cr3, started, run, calls, returned, caller, linear⟩

/-- It asks for 16 bytes in the middle of a frame and is shown those at its beginning. -/
theorem mapPhys_shifted : ∃ booted history m cr3, boot (samplePlatform none) sampleArgs = some booted ∧
    Base.Run (step (samplePlatform none)) booted history m ∧
    history.map Prod.snd = sampleStart ++ [sampleCall 14 8192 0 0] ∧
    m.HoldsMemory 0 0x100000 8192 ∧ mapAllowed 0x100000 8192 (actualRange 0x100000 8192 0x100010 16) = true ∧
    (m.syscallHandler (samplePlatform none) ⟨0, 0x100010, 16, 0, 0, 0, 11⟩ sampleEnv).2 = .done 0x80000000 ∧
    m.callerCr3 = some cr3 ∧
    (m.syscallHandler (samplePlatform none) ⟨0, 0x100010, 16, 0, 0, 0, 11⟩ sampleEnv).1.memory.translate cr3
      0x80000000 = some 0x100000 ∧
    ¬ Linear (m.syscallHandler (samplePlatform none) ⟨0, 0x100010, 16, 0, 0, 0, 11⟩ sampleEnv).1.memory cr3
      0x80000000 0x100010 16 := by
  obtain ⟨booted, history, m, started, run, calls, checked⟩ := sample_run none [sampleCall 14 8192 0 0]
    (fun m =>
      let call := m.syscallHandler (samplePlatform none) ⟨0, 0x100010, 16, 0, 0, 0, 11⟩ sampleEnv
      decide ((m.kernel.lookup 0).map (fun found => found.2.2) = some (some (.memoryMap 0x100000 8192)) ∧
        call.2 = .done 0x80000000 ∧ m.callerCr3 = some 0x129000 ∧
        call.1.memory.translate 0x129000 0x80000000 = some 0x100000))
    (by decide +kernel)
  obtain ⟨held, returned, caller, translated⟩ := of_decide_eq_true checked
  obtain ⟨⟨current, cs, _⟩, found, rfl⟩ := Option.map_eq_some_iff.mp held
  refine ⟨booted, history, m, _, started, run, calls, ⟨current, cs, found⟩, by decide, returned, caller, translated, ?_⟩
  intro linear
  have first := linear 0 (by decide)
  rw [Nat.add_zero, translated] at first
  cases first

end Machine

end ElseOS
