import ElseOS.Syscall.Atomicity

/-! Handles: a capability space as a partial map, and what a child inherits of it.

What was placed where is read off a log of the operations, the newest first; the space itself
is a table with holes that grows. -/

set_option autoImplicit false

namespace ElseOS

inductive CSpaceOp where
  | insert (cap : Capability)
  | insertAt (index : Nat) (cap : Capability)
  | get (handle : Nat)
  | remove (handle : Nat)
  deriving DecidableEq, Repr

namespace CSpace

def apply (cspace : CSpace) : CSpaceOp → CSpace × List (Nat × Option Capability)
  | .insert cap =>
    let (after, handle) := cspace.insert cap
    (after, [(handle, some cap)])
  | .insertAt index cap => (cspace.insertAt index cap, [(index, some cap)])
  | .get _ => (cspace, [])
  | .remove handle => ((cspace.remove handle).1, [(handle, none)])

def replay (ops : List CSpaceOp) : CSpace × List (Nat × Option Capability) :=
  ops.foldl (fun (cspace, log) op => let (after, placed) := cspace.apply op; (after, placed ++ log)) (new, [])

/-- What was placed at a handle last, unless it was removed again. -/
def latest (log : List (Nat × Option Capability)) (handle : Nat) : Option Capability :=
  (log.find? fun entry => entry.1 = handle).bind Prod.snd

theorem latest_cons (entry : Nat × Option Capability) (log : List (Nat × Option Capability)) (handle : Nat) :
    latest (entry :: log) handle = if handle = entry.1 then entry.2 else latest log handle := by
  unfold latest
  rw [List.find?_cons]
  by_cases same : entry.1 = handle
  · rw [decide_eq_true same, if_pos same.symm]
    rfl
  · rw [decide_eq_false same, if_neg fun equal => same equal.symm]

theorem get_remove (cspace : CSpace) (handle other : Nat) :
    (cspace.remove handle).1.get other = if other = handle then none else cspace.get other :=
  (Base.Slots.remove_eq cspace.slots handle).2 other

theorem remove_held (cspace : CSpace) (handle : Nat) : (cspace.remove handle).2 = cspace.get handle :=
  (Base.Slots.remove_eq cspace.slots handle).1

theorem insert_least (cspace : CSpace) (cap : Capability) {handle : Nat} (before : handle < (cspace.insert cap).2) :
    cspace.get handle ≠ none := Base.Slots.insert_least cspace.slots cap before

theorem get_apply (cspace : CSpace) (op : CSpaceOp) (log : List (Nat × Option Capability))
    (agree : ∀ handle, cspace.get handle = latest log handle) (handle : Nat) :
    (cspace.apply op).1.get handle = latest ((cspace.apply op).2 ++ log) handle := by
  cases op with
  | insert cap =>
    change (cspace.insert cap).1.get handle = latest (((cspace.insert cap).2, some cap) :: log) handle
    rw [get_insert, latest_cons, agree]
  | insertAt index cap =>
    change (cspace.insertAt index cap).get handle = latest ((index, some cap) :: log) handle
    rw [get_insertAt, latest_cons, agree]
  | get other => exact agree handle
  | remove other =>
    change (cspace.remove other).1.get handle = latest ((other, none) :: log) handle
    rw [get_remove, latest_cons, agree]

theorem get_replay (ops : List CSpaceOp) (handle : Nat) : (replay ops).1.get handle = latest (replay ops).2 handle := by
  induction ops using List.reverseRecOn generalizing handle with
  | nil => rfl
  | append_singleton ops op ih =>
    have step : replay (ops ++ [op]) =
        (((replay ops).1.apply op).1, ((replay ops).1.apply op).2 ++ (replay ops).2) := by
      unfold replay
      rw [List.foldl_append]
      rfl
    rw [step]
    exact get_apply (replay ops).1 op (replay ops).2 ih handle

structure PartialMap (cspace : CSpace) (log : List (Nat × Option Capability)) : Prop where
  get : ∀ handle, cspace.get handle = latest log handle
  insert_free : ∀ cap, cspace.get (cspace.insert cap).2 = none
  insert_least : ∀ cap handle, handle < (cspace.insert cap).2 → cspace.get handle ≠ none
  insert : ∀ cap handle, (cspace.insert cap).1.get handle =
    if handle = (cspace.insert cap).2 then some cap else cspace.get handle
  insertAt : ∀ index cap handle, (cspace.insertAt index cap).get handle =
    if handle = index then some cap else cspace.get handle
  remove : ∀ index handle, (cspace.remove index).1.get handle = if handle = index then none else cspace.get handle
  removed : ∀ index, (cspace.remove index).2 = cspace.get index

theorem partialMap_replay (ops : List CSpaceOp) : PartialMap (replay ops).1 (replay ops).2 where
  get := get_replay ops
  insert_free := (replay ops).1.get_insert_fresh
  insert_least cap _ := (replay ops).1.insert_least cap
  insert := (replay ops).1.get_insert
  insertAt index cap handle := (replay ops).1.get_insertAt index handle cap
  remove index handle := (replay ops).1.get_remove index handle
  removed := (replay ops).1.remove_held

end CSpace

/-! ## What a child inherits -/

namespace Kernel

structure Copies (parent : CSpaceRef) (before after : Kernel) : Prop where
  child : ∃ thread, after.scheduler.runQueue = before.scheduler.runQueue ++ [thread] ∧
    thread.cspace = some before.nextCSpace ∧ thread.processState = some before.nextProcess
  inherited : ∀ handle, (after.cspaces before.nextCSpace).get handle = (before.cspaces parent).get handle
  gained : ∃ own, (before.cspaces parent).get own = none ∧
    (∀ earlier < own, (before.cspaces parent).get earlier ≠ none) ∧
    ∀ handle, (after.cspaces parent).get handle =
      if handle = own then some (.process before.nextProcess .WAIT) else (before.cspaces parent).get handle

variable {k : Kernel} {current : Thread} {parent : CSpaceRef}

theorem cspaces_spawnChild (found : k.lookup usizeMax = some (current, parent, none)) (old : parent ≠ k.nextCSpace)
    (entryPoint cr3 stackBase : UInt64) :
    (k.spawnChild usizeMax entryPoint cr3 stackBase).1.cspaces =
      Function.update (Function.update k.cspaces k.nextCSpace (CSpace.cloneInto .new 0 (k.cspaces parent).slots)) parent
        ((k.cspaces parent).insert (.process k.nextProcess .WAIT)).1 := by
  obtain ⟨built, isBuilt⟩ : ∃ built, built = Function.update k.cspaces k.nextCSpace CSpace.new := ⟨_, rfl⟩
  have fresh : built k.nextCSpace = .new := by rw [isBuilt, Function.update_self]
  have kept : built parent = k.cspaces parent := by rw [isBuilt, Function.update_of_ne old]
  have raw : (k.spawnChild usizeMax entryPoint cr3 stackBase).1.cspaces =
      Function.update
      (Function.update built k.nextCSpace (CSpace.cloneInto (built k.nextCSpace) 0 (built parent).slots))
        parent ((Function.update built k.nextCSpace (CSpace.cloneInto (built k.nextCSpace) 0 (built parent).slots)
          parent).insert (.process k.nextProcess .WAIT)).1 := by
    rw [isBuilt]
    unfold spawnChild
    rw [found]
    dsimp only
    rw [if_pos rfl]
    rfl
  rw [raw, fresh, Function.update_of_ne old, kept, isBuilt, Function.update_idem]

theorem copies_spawnChild (found : k.lookup usizeMax = some (current, parent, none)) (old : parent ≠ k.nextCSpace)
    (entryPoint cr3 stackBase : UInt64) : Copies parent k (k.spawnChild usizeMax entryPoint cr3 stackBase).1 := by
  have spaces := cspaces_spawnChild found old entryPoint cr3 stackBase
  constructor
  · unfold spawnChild
    rw [found]
    dsimp only
    rw [if_pos rfl]
    exact ⟨_, rfl, rfl, rfl⟩
  · intro handle
    rw [spaces, Function.update_of_ne old.symm, Function.update_self, CSpace.get_cloneInto, if_pos (Nat.zero_le _)]
    exact Option.or_none
  · refine ⟨((k.cspaces parent).insert (.process k.nextProcess .WAIT)).2, CSpace.get_insert_fresh _ _,
      fun _ => CSpace.insert_least _ _, fun handle => ?_⟩
    rw [spaces, Function.update_self]
    exact CSpace.get_insert _ _ _

end Kernel

namespace Machine

variable {paging : Paging} {platform : Platform} {m : Machine paging}

theorem sysSpawn_makes {namePtr nameLen epHandle : UInt64} {env : CallEnv}
    (made : (m.sysSpawn platform namePtr nameLen epHandle env).1.kernel.nextCSpace ≠ m.kernel.nextCSpace) :
    ∃ entryPoint cr3, (m.sysSpawn platform namePtr nameLen epHandle env).1.kernel =
      (m.kernel.spawnChild epHandle entryPoint cr3 env.stackBase).1 := by
  revert made
  unfold sysSpawn
  split
  · cases env.text with
    | none => exact fun made => absurd rfl made
    | some name =>
      dsimp only
      split
      · cases m.kernel.lookup epHandle with
        | none => exact fun made => absurd rfl made
        | some found =>
          cases platform.findFile name with
          | none => exact fun made => absurd rfl made
          | some image =>
            dsimp only
            rcases Elf.load image m.kernel.hardware.cr3 m.memory with ⟨memory, _ | ⟨entryPoint, cr3⟩⟩
            · exact fun made => absurd rfl made
            · exact fun _ => ⟨entryPoint, cr3, rfl⟩
      · exact fun made => absurd rfl made
  · exact fun made => absurd rfl made

/-- A capability space is a partial map that gives out its least free handle, and a spawn with `usize::MAX`
copies it. -/
theorem cspace_partial_map (platform : Platform) :
    (∀ ops, CSpace.PartialMap (CSpace.replay ops).1 (CSpace.replay ops).2) ∧
    ∀ {args : BootArgs paging} {booted m : Machine paging} {history : List (Machine paging × Act)},
      boot platform args = some booted → Base.Run (step platform) booted history m →
      ∀ (regs : Registers) (env : CallEnv) (parent : CSpaceRef), regs.rax = 6 → regs.rdx = usizeMax →
        m.kernel.caller = some parent → (m.kernel.cspaces parent).get usizeMax.toNat = none →
        (m.syscallHandler platform regs env).1.kernel.nextCSpace ≠ m.kernel.nextCSpace →
        Kernel.Copies parent m.kernel (m.syscallHandler platform regs env).1.kernel := by
  refine ⟨CSpace.partialMap_replay, ?_⟩
  intro args booted m history started run regs env parent call all isCaller absent made
  obtain ⟨image, acts, scheduled⟩ := kernelRun_of_run started run
  have old := (Kernel.populated_of_run scheduled).caller_lt isCaller
  rw [handler_spawn call, all] at made ⊢
  obtain ⟨entryPoint, cr3, spawned⟩ := sysSpawn_makes made
  rw [spawned]
  obtain ⟨current, isCurrent, has⟩ := Option.bind_eq_some_iff.mp isCaller
  have found : m.kernel.lookup usizeMax = some (current, parent, none) := by
    unfold Kernel.lookup
    rw [isCurrent, Option.bind_some, has, Option.map_some, absent]
  exact Kernel.copies_spawnChild found (Nat.ne_of_lt old) entryPoint cr3 env.stackBase

def spawnAll : Registers := ⟨0x1000, 4, usizeMax, 0, 0, 0, 6⟩

def spawnEnv : CallEnv := { sampleEnv with text := some initName }

theorem cspace_partial_map_copied : ∃ booted history m parent, boot (samplePlatform none) sampleArgs = some booted ∧
    Base.Run (step (samplePlatform none)) booted history m ∧
    (m.syscallHandler (samplePlatform none) spawnAll spawnEnv).2 = .done 3 ∧
    Kernel.Copies parent m.kernel (m.syscallHandler (samplePlatform none) spawnAll spawnEnv).1.kernel := by
  obtain ⟨booted, history, m, started, run, _, checked⟩ := sample_run none [sampleCall 3 0 0 0]
    (fun m => decide (m.kernel.caller = some 0 ∧ (m.kernel.cspaces 0).get usizeMax.toNat = none ∧
      (m.syscallHandler (samplePlatform none) spawnAll spawnEnv).2 = .done 3 ∧
      (m.syscallHandler (samplePlatform none) spawnAll spawnEnv).1.kernel.nextCSpace ≠ m.kernel.nextCSpace))
    (by decide +kernel)
  obtain ⟨isCaller, absent, returned, made⟩ := of_decide_eq_true checked
  exact ⟨booted, history, m, 0, started, run, returned,
    (cspace_partial_map (samplePlatform none)).2 started run spawnAll spawnEnv 0 rfl rfl isCaller absent made⟩

end Machine

end ElseOS
