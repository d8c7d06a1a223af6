import ElseOS.Task.Lineage

/-! The spaces a thread lives in.

A thread keeps its address space and its capability space for life, and a new thread gets
both from the same place: from its creator, or fresh ones. Capability spaces only ever
gain capabilities, one at a time, so a handle once valid keeps its meaning. -/

set_option autoImplicit false

namespace ElseOS.Kernel

variable {k after : Kernel} {op : Op} {who : Thread}

/-! ## Capability spaces -/

/-- The spaces there are stay as they are, except that the caller's gains a capability at its
least free handle. -/
inductive Adds (k after : Kernel) : Prop where
  | nothing : (∀ cs < k.nextCSpace, after.cspaces cs = k.cspaces cs) → Adds k after
  | one {cs : CSpaceRef} {cap : Capability} : k.caller = some cs →
      (∀ other < k.nextCSpace, other ≠ cs → after.cspaces other = k.cspaces other) →
      after.cspaces cs = ((k.cspaces cs).insert cap).1 → Adds k after

theorem spawnedSpaces_of_lt {cs other : CSpaceRef} (epHandle : UInt64) (known : other < k.nextCSpace) :
    k.spawnedSpaces cs epHandle other = k.cspaces other := by
  have different : other ≠ k.nextCSpace := Nat.ne_of_lt known
  unfold spawnedSpaces
  split
  · rw [Function.update_of_ne different, Function.update_of_ne different]
  · rw [Function.update_of_ne different]

theorem adds_of_update {objects : Objects} {spaces : CSpaceRef → CSpace} {cs : CSpaceRef} {cap : Capability}
    (isCaller : k.caller = some cs) (known : cs < k.nextCSpace)
    (same : ∀ other < k.nextCSpace, spaces other = k.cspaces other)
    (updated : objects.cspaces = Function.update spaces cs ((spaces cs).insert cap).1)
    (isAfter : after.cspaces = objects.cspaces) : k.Adds after := by
  refine @Adds.one k after cs cap isCaller ?_ ?_
  · intro other small different
    rw [isAfter, updated, Function.update_of_ne different, same other small]
  · rw [isAfter, updated, Function.update_self, same cs known]

theorem adds_of_step (populated : k.Populated) (taken : k.step op = some after) : k.Adds after := by
  have grants := grants_of_step taken
  generalize isObjects : after.objects = objects at grants
  have isAfter : after.cspaces = objects.cspaces := isObjects ▸ rfl
  cases grants with
  | unchanged => exact .nothing fun cs _ => congrFun isAfter cs
  | kernelThread => exact .nothing fun cs _ => congrFun isAfter cs
  | endpoint isCaller => exact adds_of_update isCaller (populated.caller_lt isCaller) (fun _ _ => rfl) rfl isAfter
  | memory isCaller => exact adds_of_update isCaller (populated.caller_lt isCaller) (fun _ _ => rfl) rfl isAfter
  | child isCaller =>
    exact adds_of_update isCaller (populated.caller_lt isCaller)
      (fun _ known => spawnedSpaces_of_lt _ known) rfl isAfter

theorem Adds.keeps (adds : k.Adds after) {cs : CSpaceRef} (known : cs < k.nextCSpace) {handle : Nat} {cap : Capability}
    (held : (k.cspaces cs).get handle = some cap) : (after.cspaces cs).get handle = some cap := by
  cases adds with
  | nothing same => rwa [same cs known]
  | @one caller added _ same inserted =>
    by_cases own : cs = caller
    · subst own
      rw [inserted, CSpace.get_insert, if_neg]
      · exact held
      · -- the handle that is filled was free
        rintro rfl
        rw [CSpace.get_insert_fresh] at held
        cases held
    · rwa [same cs known own]

def Endures (k after : Kernel) : Prop :=
  k.nextCSpace ≤ after.nextCSpace ∧ ∀ cs < k.nextCSpace, ∀ handle cap,
    (k.cspaces cs).get handle = some cap → (after.cspaces cs).get handle = some cap

theorem Endures.refl (k : Kernel) : k.Endures k := ⟨Nat.le_refl _, fun _ _ _ _ held => held⟩

theorem Endures.trans {middle : Kernel} (first : k.Endures middle) (second : middle.Endures after) : k.Endures after :=
  ⟨Nat.le_trans first.1 second.1, fun cs known handle cap held =>
    second.2 cs (Nat.lt_of_lt_of_le known first.1) handle cap (first.2 cs known handle cap held)⟩

theorem endures_of_step (populated : k.Populated) (taken : k.step op = some after) : k.Endures after :=
  ⟨(counters_of_grants (grants_of_step taken)).2.2,
    fun _ known _ _ held => (adds_of_step populated taken).keeps known held⟩

theorem Endures.holds {cs : CSpaceRef} {cap : Capability} (endures : k.Endures after) (known : cs < k.nextCSpace)
    (holds : (k.cspaces cs).Holds cap) : (after.cspaces cs).Holds cap := by
  obtain ⟨handle, held⟩ := holds
  exact ⟨handle, endures.2 cs known handle cap held⟩

/-! ## Address spaces -/

def SharesHome (other who : Thread) : Prop := other.cr3 = who.cr3 ∧ other.cspace = who.cspace

def Settles (before after : Kernel) : Prop :=
  ∀ who, Listed after.roster who → ∃ other, Listed before.roster other ∧ SharesHome other who

theorem settles_refl (k : Kernel) : Settles k k := fun who listed => ⟨who, listed, rfl, rfl⟩

theorem Settles.trans {first middle last : Kernel} (left : Settles first middle) (right : Settles middle last) :
    Settles first last := by
  intro who listed
  obtain ⟨other, stood, table, space⟩ := right who listed
  obtain ⟨earliest, earlier, sameTable, sameSpace⟩ := left other stood
  exact ⟨earliest, earlier, sameTable.trans table, sameSpace.trans space⟩

theorem cr3_of_spawn {epHandle entryPoint cr3 stackBase : UInt64} {thread : Thread} (orderly : k.Orderly)
    (taken : k.step (.spawnChild epHandle entryPoint cr3 stackBase) = some after) (creates : k.Creates after thread) :
    thread.cr3 = some cr3 := by
  obtain ⟨_, rfl⟩ := of_whenRunning taken
  cases found : k.lookup epHandle with
  | none =>
    have count := creates.nextTid
    simp [spawnChild, found, panic] at count
  | some caller =>
    obtain ⟨child, also, _, table⟩ := creates_spawnChild orderly entryPoint cr3 stackBase found
    rw [creates.unique also]
    exact table

/-- A thread that does not share a home with an earlier one is the first of a new process. -/
theorem home_of_step (orderly : k.Orderly) (taken : k.step op = some after) (listed : Listed after.roster who) :
    (∃ other, Listed k.roster other ∧ SharesHome other who) ∨
    (∃ epHandle entryPoint cr3 stackBase, op = .spawnChild epHandle entryPoint cr3 stackBase ∧ who.cr3 = some cr3 ∧
      who.cspace = some k.nextCSpace) ∨
    ∃ entryPoint stackBase, op = .newKernelThread entryPoint stackBase := by
  rcases descends_of_step orderly taken with descends | ⟨thread, creates⟩
  · obtain ⟨place, member⟩ := listed
    obtain ⟨other, stood⟩ := descends place who member
    exact .inl ⟨who, ⟨other, stood⟩, rfl, rfl⟩
  · rcases (listed_create creates).mp listed with old | rfl
    · exact .inl ⟨who, old, rfl, rfl⟩
    · have granted := grants_of_step taken
      generalize counted : after.objects = objects at granted
      have spaces : objects.nextCSpace = after.nextCSpace := counted ▸ rfl
      have processes : objects.nextProcess = after.nextProcess := counted ▸ rfl
      cases creates.lineage with
      | sibling isCurrent currentTable currentSpace _ table space =>
        refine .inl ⟨_, ⟨.current, by rw [roster_current isCurrent]; exact List.mem_singleton_self _⟩, ?_, ?_⟩
        · exact currentTable.trans table.symm
        · exact currentSpace.trans space.symm
      | kernel _ _ _ moreSpaces sameProcesses =>
        cases granted with
        | kernelThread => exact .inr (.inr ⟨_, _, rfl⟩)
        | _ => simp [Kernel.objects, moreSpaces, sameProcesses] at spaces processes
      | child _ space _ _ moreProcesses =>
        cases granted with
        | child =>
          have table := cr3_of_spawn orderly taken creates
          exact .inr (.inl ⟨_, _, _, _, rfl, table, space⟩)
        | _ => simp [Kernel.objects, moreProcesses] at processes

end ElseOS.Kernel
