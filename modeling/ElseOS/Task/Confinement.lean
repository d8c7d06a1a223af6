import ElseOS.Task.Lineage

/-! How far authority spreads.

A process is its capability space. Interrupts and ports come from boot alone and pass
only to children that are given everything; an endpoint passes from its creator to
children and no other way, since messages carry no capabilities. -/

set_option autoImplicit false

namespace ElseOS

def Capability.isDevice : Capability → Bool
  | .interrupt _ | .portIo _ _ _ => true
  | _ => false

namespace Kernel

def Spawns (k : Kernel) (op : Op) (parent child : CSpaceRef) (epHandle : UInt64) : Prop :=
  k.caller = some parent ∧ child = k.nextCSpace ∧
    ∃ entryPoint cr3 stackBase, op = .spawnChild epHandle entryPoint cr3 stackBase

/-- The process was spawned with a handle of its own, or descends from one that was. -/
inductive Confined : List (Kernel × Op) → CSpaceRef → Prop where
  | spawned {past : List (Kernel × Op)} {k : Kernel} {op : Op} {parent child : CSpaceRef} {epHandle : UInt64} :
      k.Spawns op parent child epHandle → epHandle ≠ usizeMax → Confined (past ++ [(k, op)]) child
  | descendant {past : List (Kernel × Op)} {k : Kernel} {op : Op} {parent child : CSpaceRef} {epHandle : UInt64} :
      Confined past parent → k.Spawns op parent child epHandle → Confined (past ++ [(k, op)]) child
  | later {past : List (Kernel × Op)} {entry : Kernel × Op} {cs : CSpaceRef} :
      Confined past cs → Confined (past ++ [entry]) cs

def CreatedBy (history : List (Kernel × Op)) (cs : CSpaceRef) (ep : EndpointRef) (rights : Rights) : Prop :=
  ∃ entry ∈ history, entry.2 = .sysEndpointCreate ∧ entry.1.caller = some cs ∧ ep = entry.1.nextEndpoint ∧ rights = .ALL

def InheritedBy (history : List (Kernel × Op)) (cs : CSpaceRef) (cap : Capability) : Prop :=
  ∃ entry ∈ history, ∃ parent epHandle, entry.1.Spawns entry.2 parent cs epHandle ∧
    (entry.1.cspaces parent).Holds cap

structure Provenance (info : BootInfo) (history : List (Kernel × Op)) (k : Kernel) : Prop where
  /-- Interrupts and ports are boot's. -/
  device : ∀ {cs cap}, (k.cspaces cs).Holds cap → cap.isDevice = true → ∃ handle, (handle, cap) ∈ info.grants
  confined : ∀ {cs cap}, Confined history cs → (k.cspaces cs).Holds cap → cap.isDevice = false
  endpoint : ∀ {cs ep rights}, (k.cspaces cs).Holds (.endpoint ep rights) →
    CreatedBy history cs ep rights ∨ InheritedBy history cs (.endpoint ep rights)

structure Unspent (history : List (Kernel × Op)) (k : Kernel) : Prop where
  empty : ∀ {cs cap}, (k.cspaces cs).Holds cap → cs < k.nextCSpace
  known : ∀ {cs}, Confined history cs → cs < k.nextCSpace

variable {k after : Kernel} {op : Op} {past history : List (Kernel × Op)} {info : BootInfo} {cs : CSpaceRef}
  {cap : Capability}

/-- A step confines the child it spawns and nobody else. -/
theorem confined_append (confined : Confined (past ++ [(k, op)]) cs) :
    Confined past cs ∨ ∃ parent epHandle, k.Spawns op parent cs epHandle ∧
      (epHandle ≠ usizeMax ∨ Confined past parent) := by
  generalize grown : past ++ [(k, op)] = history at confined
  cases confined with
  | spawned spawns chosen =>
    obtain ⟨rfl, same⟩ := List.append_inj' grown rfl
    cases same
    exact .inr ⟨_, _, spawns, .inl chosen⟩
  | descendant earlier spawns =>
    obtain ⟨rfl, same⟩ := List.append_inj' grown rfl
    cases same
    exact .inr ⟨_, _, spawns, .inr earlier⟩
  | later earlier =>
    obtain ⟨rfl, _⟩ := List.append_inj' grown rfl
    exact .inl earlier

theorem CreatedBy.later {ep : EndpointRef} {rights : Rights} (created : CreatedBy past cs ep rights)
    (entry : Kernel × Op) : CreatedBy (past ++ [entry]) cs ep rights := by
  obtain ⟨old, member, facts⟩ := created
  exact ⟨old, List.mem_append_left _ member, facts⟩

theorem InheritedBy.later (inherited : InheritedBy past cs cap) (entry : Kernel × Op) :
    InheritedBy (past ++ [entry]) cs cap := by
  obtain ⟨old, member, facts⟩ := inherited
  exact ⟨old, List.mem_append_left _ member, facts⟩

theorem Unspent.step (unspent : Unspent past k) (populated : k.Populated) (taken : k.step op = some after) :
    Unspent (past ++ [(k, op)]) after := by
  have grants := grants_of_step taken
  have spaces : k.nextCSpace ≤ after.nextCSpace := (counters_of_grants grants).2.2
  have spawned : ∀ {parent child epHandle}, k.Spawns op parent child epHandle → child < after.nextCSpace := by
    rintro parent child epHandle ⟨isCaller, rfl, entryPoint, cr3, stackBase, rfl⟩
    obtain ⟨_, isAfter⟩ := of_whenRunning taken
    obtain ⟨current, isCurrent, has⟩ := Option.bind_eq_some_iff.mp isCaller
    have found : k.lookup epHandle = some (current, parent, (k.cspaces parent).get epHandle.toNat) := by
      simp [lookup, isCurrent, has]
    rw [isAfter, spawnChild, found]
    dsimp only
    split <;> exact Nat.lt_succ_self k.nextCSpace
  constructor
  · intro cs cap holds
    cases origin_of_grants grants holds with
    | kept old => exact Nat.lt_of_lt_of_le (unspent.empty old) spaces
    | endpoint isCaller => exact Nat.lt_of_lt_of_le (populated.caller_lt isCaller) spaces
    | memory isCaller => exact Nat.lt_of_lt_of_le (populated.caller_lt isCaller) spaces
    | child isCaller => exact Nat.lt_of_lt_of_le (populated.caller_lt isCaller) spaces
    | inherited isCaller _ _ => exact spawned ⟨isCaller, rfl, _, _, _, rfl⟩
  · intro cs confined
    rcases confined_append confined with earlier | ⟨parent, epHandle, spawns, _⟩
    · exact Nat.lt_of_lt_of_le (unspent.known earlier) spaces
    · exact spawned spawns

theorem Provenance.step (provenance : Provenance info past k) (unspent : Unspent past k)
    (taken : k.step op = some after) : Provenance info (past ++ [(k, op)]) after := by
  have origin : ∀ {cs cap}, (after.cspaces cs).Holds cap → k.Origin op cs cap :=
    fun holds => origin_of_grants (grants_of_step taken) holds
  refine ⟨?_, ?_, ?_⟩
  · intro cs cap holds isDevice
    cases origin holds with
    | kept old => exact provenance.device old isDevice
    | endpoint _ | memory _ | child _ => cases isDevice
    | inherited _ held _ => exact provenance.device held isDevice
  · intro cs cap confined holds
    cases origin holds with
    | kept old =>
      rcases confined_append confined with earlier | ⟨parent, epHandle, ⟨_, isChild, _⟩, _⟩
      · exact provenance.confined earlier old
      · -- a space that is being built held nothing
        exact absurd (unspent.empty old) (isChild ▸ Nat.lt_irrefl _)
    | endpoint _ | memory _ | child _ => rfl
    | inherited isCaller held everything =>
      rcases everything with all | ⟨ep, rights, rfl⟩
      · rcases confined_append confined with earlier | ⟨parent, epHandle, ⟨alsoCaller, _, _, _, _, same⟩, why⟩
        · exact absurd (unspent.known earlier) (Nat.lt_irrefl _)
        · cases same
          rw [isCaller] at alsoCaller
          cases alsoCaller
          exact provenance.confined (why.resolve_left fun chosen => chosen all) held
      · rfl
  · intro cs ep rights holds
    generalize isEndpoint : Capability.endpoint ep rights = cap at holds
    cases origin holds with
    | kept old =>
      rcases provenance.endpoint (isEndpoint ▸ old) with created | inherited
      · exact .inl (created.later _)
      · exact .inr (isEndpoint ▸ inherited.later _)
    | endpoint isCaller =>
      cases isEndpoint
      exact .inl ⟨(k, _), by simp, rfl, isCaller, rfl, rfl⟩
    | memory _ => cases isEndpoint
    | child _ => cases isEndpoint
    | @inherited parent _ epHandle entryPoint cr3 stackBase isCaller held _ =>
      exact .inr ⟨(k, .spawnChild epHandle entryPoint cr3 stackBase), by simp, parent, epHandle,
        ⟨isCaller, rfl, _, _, _, rfl⟩, held⟩

variable {bootCr3 : UInt64} {image : InitImage}

theorem not_confined_nil : ¬ Confined [] cs := by
  intro confined
  generalize isEmpty : ([] : List (Kernel × Op)) = history at confined
  cases confined <;> simp at isEmpty

theorem unspent_of_run (run : KernelRun bootCr3 info image history k) : Unspent history k := by
  refine run.induct Unspent ⟨?_, fun confined => absurd confined not_confined_nil⟩ ?_
  · intro cs cap holds
    obtain ⟨rfl, _⟩ := holds_booted holds
    exact Nat.one_pos
  · exact fun earlier unspent taken => unspent.step (populated_of_run earlier) taken

/-- In every run interrupts and ports are those boot granted; a process that was spawned with a handle of its
own never holds one, nor do its descendants; and a process holds an endpoint only if it created it or its
parent held it with the same rights when it was spawned. -/
theorem authority_confined (run : KernelRun bootCr3 info image history k) : Provenance info history k := by
  refine run.induct (Provenance info) ⟨?_, fun confined => absurd confined not_confined_nil, ?_⟩ ?_
  · intro cs cap holds _
    exact (holds_booted holds).2
  · intro cs ep rights holds
    obtain ⟨_, handle, granted⟩ := holds_booted holds
    cases BootInfo.grants_hardware granted
  · exact fun earlier provenance taken => provenance.step (unspent_of_run earlier) taken

/-- `init` creates an endpoint and spawns a process that gets it alone. -/
theorem authority_confined_child : ∃ history k,
    KernelRun 0x1000 ⟨none, none, 0⟩ ⟨0x400000, 0x2000, 0x10000⟩ history k ∧
    history.map Prod.snd = [.yieldNow, .dispatch 1, .sysEndpointCreate, .spawnChild 0 0x400000 0x3000 0x20000] ∧
    Confined history 1 ∧ (k.cspaces 1).Holds (.endpoint 0 .ALL) ∧ Provenance ⟨none, none, 0⟩ history k := by
  obtain ⟨past, before, run, labels, _, facts⟩ := Base.Run.of_check step (fun _ _ => true)
    (booted 0x1000 ⟨none, none, 0⟩ ⟨0x400000, 0x2000, 0x10000⟩) [.yieldNow, .dispatch 1, .sysEndpointCreate]
    (fun k => k.caller == some 0 && k.nextCSpace == 1 &&
      (k.step (.spawnChild 0 0x400000 0x3000 0x20000)).any fun after =>
        (after.cspaces 1).get 1 == some (.endpoint 0 .ALL)) (by decide +kernel)
  rw [Bool.and_eq_true, Bool.and_eq_true, beq_iff_eq, beq_iff_eq, Option.any_eq_true] at facts
  obtain ⟨⟨isCaller, fresh⟩, k, taken, granted⟩ := facts
  exact ⟨past ++ [(before, .spawnChild 0 0x400000 0x3000 0x20000)], k, run.next taken, by simp [labels],
    .spawned ⟨isCaller, fresh.symm, _, _, _, rfl⟩ (by decide), ⟨1, eq_of_beq granted⟩,
    authority_confined (run.next taken)⟩

end Kernel

end ElseOS
