import ElseOS.Task.Unscheduled

/-! Where the capabilities in a space come from, one step at a time. -/

set_option autoImplicit false

namespace ElseOS.Kernel

def caller (k : Kernel) : Option CSpaceRef := k.scheduler.current.bind Thread.cspace

theorem caller_of_lookup {k : Kernel} {handle : UInt64} {current : Thread} {cs : CSpaceRef}
    {held : Option Capability} (found : k.lookup handle = some (current, cs, held)) :
    k.caller = some cs ∧ (k.cspaces cs).get handle.toNat = held := by
  unfold lookup at found
  obtain ⟨thread, isCurrent, found⟩ := Option.bind_eq_some_iff.mp found
  obtain ⟨space, has, found⟩ := Option.map_eq_some_iff.mp found
  cases found
  exact ⟨by simp [caller, isCurrent, has], rfl⟩

/-- The spaces when a spawn has built the child's and not yet added to the parent's. -/
def spawnedSpaces (k : Kernel) (cs : CSpaceRef) (epHandle : UInt64) : CSpaceRef → CSpace :=
  let spaces := Function.update k.cspaces k.nextCSpace
    (spawnSpace (grantedCap ((k.cspaces cs).get epHandle.toNat)))
  if epHandle = usizeMax then
    Function.update spaces k.nextCSpace (CSpace.cloneInto (spaces k.nextCSpace) 0 (spaces cs).slots)
  else spaces

inductive Grants (k : Kernel) : Op → Objects → Prop where
  | unchanged {op : Op} : Grants k op k.objects
  | kernelThread {entryPoint stackBase : UInt64} :
      Grants k (.newKernelThread entryPoint stackBase) { k.objects with nextCSpace := k.nextCSpace + 1 }
  | endpoint {cs : CSpaceRef} : k.caller = some cs →
      Grants k .sysEndpointCreate { k.objects with
        cspaces := Function.update k.cspaces cs ((k.cspaces cs).insert (.endpoint k.nextEndpoint .ALL)).1
        nextEndpoint := k.nextEndpoint + 1 }
  | memory {cs : CSpaceRef} {start len : UInt64} : k.caller = some cs →
      Grants k (.grantMemory start len) { k.objects with
        cspaces := Function.update k.cspaces cs ((k.cspaces cs).insert (.memoryMap start len)).1 }
  | child {cs : CSpaceRef} {epHandle entryPoint cr3 stackBase : UInt64} : k.caller = some cs →
      Grants k (.spawnChild epHandle entryPoint cr3 stackBase) { k.objects with
        cspaces := Function.update (k.spawnedSpaces cs epHandle) cs
          ((k.spawnedSpaces cs epHandle cs).insert (.process k.nextProcess .WAIT)).1
        nextProcess := k.nextProcess + 1
        nextCSpace := k.nextCSpace + 1 }

variable {k after : Kernel}

theorem grants_spawnChild (epHandle entryPoint cr3 stackBase : UInt64) :
    k.Grants (.spawnChild epHandle entryPoint cr3 stackBase)
      (k.spawnChild epHandle entryPoint cr3 stackBase).1.objects := by
  rcases found : k.lookup epHandle with _ | ⟨current, cs, held⟩
  · simp only [spawnChild, found]
    exact .unchanged
  · obtain ⟨isCaller, rfl⟩ := caller_of_lookup found
    have granted := @Grants.child k cs epHandle entryPoint cr3 stackBase isCaller
    simp only [spawnChild, found]
    by_cases all : epHandle = usizeMax
    · simp only [spawnedSpaces, if_pos all] at granted
      simp only [if_pos all]
      exact granted
    · simp only [spawnedSpaces, if_neg all] at granted
      simp only [if_neg all]
      exact granted

theorem grants_sysEndpointCreate : k.Grants .sysEndpointCreate k.sysEndpointCreate.1.objects := by
  rcases found : k.lookup 0 with _ | ⟨current, cs, held⟩
  · simp only [sysEndpointCreate, found]
    exact .unchanged
  · simp only [sysEndpointCreate, found]
    exact .endpoint (caller_of_lookup found).1

theorem grants_grantMemory (start len : UInt64) :
    k.Grants (.grantMemory start len) (k.grantMemory start len).1.objects := by
  rcases found : k.lookup 0 with _ | ⟨current, cs, held⟩
  · simp only [grantMemory, found]
    exact .unchanged
  · simp only [grantMemory, found]
    exact .memory (caller_of_lookup found).1

/-! ## Calls that touch no capability space -/

theorem objects_sysWait (handle : UInt64) : (k.sysWait handle).1.objects = k.objects := by
  unfold sysWait
  split
  · rfl
  · split
    · dsimp only
      split <;> rfl
    · rfl
  · rfl

theorem objects_sysWaitIrq (handle : UInt64) : (k.sysWaitIrq handle).1.objects = k.objects := by
  unfold sysWaitIrq
  split
  · rfl
  · dsimp only
    split <;> rfl
  · rfl

theorem objects_unblockIrq (irq : UInt8) : (k.unblockIrq irq).objects = k.objects := by
  unfold unblockIrq
  split <;> rfl

theorem objects_exitCurrentThread (rax rsp : UInt64) : (k.exitCurrentThread rax rsp).objects = k.objects := by
  cases isCurrent : k.scheduler.current with
  | none =>
    unfold exitCurrentThread
    rw [isCurrent]
    rfl
  | some current =>
    rw [unscheduled_objects.exitCurrentThread isCurrent]
    unfold retire
    cases current.processState <;> rfl

/-! ## Every step -/

theorem grants_unchanged {op : Op} (kept : after.objects = k.objects) : k.Grants op after.objects :=
  kept ▸ .unchanged

theorem grants_of_step {op : Op} (taken : k.step op = some after) : k.Grants op after.objects := by
  by_cases schedules : op.schedules = true
  · exact grants_unchanged (unscheduled_objects.step taken schedules)
  · cases op with
    | newKernelThread entryPoint stackBase =>
      obtain ⟨_, rfl⟩ := of_newKernelThread taken
      exact .kernelThread
    | exitCurrentThread rax rsp =>
      obtain ⟨_, rfl⟩ := of_whenRunning taken
      exact grants_unchanged (objects_exitCurrentThread rax rsp)
    | sysWait handle =>
      obtain ⟨_, rfl⟩ := of_whenRunning taken
      exact grants_unchanged (objects_sysWait handle)
    | sysWaitIrq handle =>
      obtain ⟨_, rfl⟩ := of_whenRunning taken
      exact grants_unchanged (objects_sysWaitIrq handle)
    | sysEndpointCreate =>
      obtain ⟨_, rfl⟩ := of_whenRunning taken
      exact grants_sysEndpointCreate
    | spawnChild epHandle entryPoint cr3 stackBase =>
      obtain ⟨_, rfl⟩ := of_whenRunning taken
      exact grants_spawnChild epHandle entryPoint cr3 stackBase
    | spawnThread entryPoint userStack stackBase =>
      obtain ⟨_, rfl⟩ := of_whenRunning taken
      refine grants_unchanged ?_
      unfold spawnThread
      split <;> rfl
    | grantMemory start len =>
      obtain ⟨_, rfl⟩ := of_whenRunning taken
      exact grants_grantMemory start len
    | unblockIrq irq =>
      obtain ⟨_, rfl⟩ := of_whenInterruptible taken
      exact grants_unchanged (objects_unblockIrq irq)
    | _ => exact absurd rfl schedules

def Names (endpoints processes : Nat) : Capability → Prop
  | .endpoint ep _ => ep < endpoints
  | .process p _ => p < processes
  | _ => True

theorem Names.mono {endpoints processes moreEndpoints moreProcesses : Nat} {cap : Capability}
    (names : Names endpoints processes cap) (grown : endpoints ≤ moreEndpoints)
    (grownToo : processes ≤ moreProcesses) : Names moreEndpoints moreProcesses cap := by
  cases cap with
  | endpoint ep rights => exact Nat.lt_of_lt_of_le names grown
  | process p rights => exact Nat.lt_of_lt_of_le names grownToo
  | _ => trivial

def Objects.Bounded (objects : Objects) : Prop :=
  ∀ cs cap, (objects.cspaces cs).Holds cap → Names objects.nextEndpoint objects.nextProcess cap

theorem counters_of_grants {op : Op} {objects : Objects} (grants : k.Grants op objects) :
    k.nextEndpoint ≤ objects.nextEndpoint ∧ k.nextProcess ≤ objects.nextProcess ∧
    k.nextCSpace ≤ objects.nextCSpace := by
  cases grants <;> simp [objects]

inductive Origin (k : Kernel) : Op → CSpaceRef → Capability → Prop where
  | kept {op : Op} {cs : CSpaceRef} {cap : Capability} : (k.cspaces cs).Holds cap → Origin k op cs cap
  | endpoint {cs : CSpaceRef} : k.caller = some cs →
      Origin k .sysEndpointCreate cs (.endpoint k.nextEndpoint .ALL)
  | memory {cs : CSpaceRef} {start len : UInt64} : k.caller = some cs →
      Origin k (.grantMemory start len) cs (.memoryMap start len)
  | child {cs : CSpaceRef} {epHandle entryPoint cr3 stackBase : UInt64} : k.caller = some cs →
      Origin k (.spawnChild epHandle entryPoint cr3 stackBase) cs (.process k.nextProcess .WAIT)
  | inherited {parent : CSpaceRef} {cap : Capability} {epHandle entryPoint cr3 stackBase : UInt64} :
      k.caller = some parent → (k.cspaces parent).Holds cap →
      (epHandle = usizeMax ∨ ∃ ep rights, cap = .endpoint ep rights) →
      Origin k (.spawnChild epHandle entryPoint cr3 stackBase) k.nextCSpace cap

theorem holds_spawnSpace {held : Option Capability} {cap : Capability}
    (holds : (spawnSpace (grantedCap held)).Holds cap) : held = some cap ∧ ∃ ep rights, cap = .endpoint ep rights := by
  match held with
  | some (.endpoint ep rights) =>
    rcases CSpace.holds_insertAt holds with same | none
    · exact ⟨congrArg some same.symm, ep, rights, same⟩
    · exact absurd none (CSpace.not_holds_new cap)
  | some (.process _ _) | some (.interrupt _) | some (.portIo _ _ _) | some (.memoryMap _ _) | none =>
    exact absurd holds (CSpace.not_holds_new cap)

theorem holds_spawnedSpaces {cs other : CSpaceRef} {epHandle : UInt64} {cap : Capability}
    (holds : (k.spawnedSpaces cs epHandle other).Holds cap) :
    (k.cspaces other).Holds cap ∨
    (other = k.nextCSpace ∧ (k.cspaces cs).Holds cap ∧
      (epHandle = usizeMax ∨ ∃ ep rights, cap = .endpoint ep rights)) := by
  have granted : (spawnSpace (grantedCap ((k.cspaces cs).get epHandle.toNat))).Holds cap →
      (k.cspaces cs).Holds cap ∧ ∃ ep rights, cap = .endpoint ep rights := by
    intro holds
    obtain ⟨found, isEndpoint⟩ := holds_spawnSpace holds
    exact ⟨⟨_, found⟩, isEndpoint⟩
  by_cases isChild : other = k.nextCSpace
  · subst isChild
    refine .inr ⟨rfl, ?_⟩
    by_cases all : epHandle = usizeMax
    · simp only [spawnedSpaces, if_pos all, Function.update_self] at holds
      rcases CSpace.holds_cloneInto holds with built | copied
      · exact ⟨(granted built).1, .inl all⟩
      · by_cases self : cs = k.nextCSpace
        · rw [self, Function.update_self] at copied
          rw [← self] at copied
          exact ⟨(granted copied).1, .inl all⟩
        · rw [Function.update_of_ne self] at copied
          exact ⟨copied, .inl all⟩
    · simp only [spawnedSpaces, if_neg all, Function.update_self] at holds
      exact ⟨(granted holds).1, .inr (granted holds).2⟩
  · left
    by_cases all : epHandle = usizeMax
    · simpa only [spawnedSpaces, if_pos all, Function.update_of_ne isChild] using holds
    · simpa only [spawnedSpaces, if_neg all, Function.update_of_ne isChild] using holds

theorem holds_update_insert {spaces : CSpaceRef → CSpace} {cs other : CSpaceRef} {added cap : Capability}
    (holds : (Function.update spaces cs ((spaces cs).insert added).1 other).Holds cap) :
    (other = cs ∧ cap = added) ∨ (spaces other).Holds cap := by
  by_cases same : other = cs
  · subst same
    rw [Function.update_self] at holds
    rcases CSpace.holds_insert holds with new | old
    · exact .inl ⟨rfl, new⟩
    · exact .inr old
  · rw [Function.update_of_ne same] at holds
    exact .inr holds

theorem origin_of_grants {op : Op} {objects : Objects} (grants : k.Grants op objects) {cs : CSpaceRef}
    {cap : Capability} (holds : (objects.cspaces cs).Holds cap) : k.Origin op cs cap := by
  cases grants with
  | unchanged => exact .kept holds
  | kernelThread => exact .kept holds
  | endpoint isCaller =>
    rcases holds_update_insert holds with ⟨rfl, rfl⟩ | old
    · exact .endpoint isCaller
    · exact .kept old
  | memory isCaller =>
    rcases holds_update_insert holds with ⟨rfl, rfl⟩ | old
    · exact .memory isCaller
    · exact .kept old
  | child isCaller =>
    rcases holds_update_insert holds with ⟨rfl, rfl⟩ | spawned
    · exact .child isCaller
    · rcases holds_spawnedSpaces spawned with old | ⟨rfl, held, why⟩
      · exact .kept old
      · exact .inherited isCaller held why

theorem bounded_of_grants {op : Op} {objects : Objects} (bounded : k.objects.Bounded)
    (grants : k.Grants op objects) : objects.Bounded := by
  intro cs cap holds
  obtain ⟨endpoints, processes, _⟩ := counters_of_grants grants
  have old : ∀ {space}, (k.cspaces space).Holds cap → Names objects.nextEndpoint objects.nextProcess cap :=
    fun held => (bounded _ cap held).mono endpoints processes
  cases grants with
  | unchanged => exact old holds
  | kernelThread => exact old holds
  | endpoint isCaller =>
    rcases holds_update_insert holds with ⟨_, rfl⟩ | kept
    · exact Nat.lt_succ_self k.nextEndpoint
    · exact old kept
  | memory isCaller =>
    rcases holds_update_insert holds with ⟨_, rfl⟩ | kept
    · trivial
    · exact old kept
  | child isCaller =>
    rcases holds_update_insert holds with ⟨_, rfl⟩ | spawned
    · exact Nat.lt_succ_self k.nextProcess
    · rcases holds_spawnedSpaces spawned with kept | ⟨_, held, _⟩
      · exact old kept
      · exact old held

end ElseOS.Kernel
