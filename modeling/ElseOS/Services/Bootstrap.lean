import ElseOS.Services.Rtl8139
import ElseOS.Syscall.Handler
import ElseOS.Task.Confinement
import ElseOS.Task.Homes

/-! How the services find each other.

`init` creates the endpoints and the shared pages and then spawns every service with a copy of
its space. No handle is ever passed on: a service has the numbers of the handles it uses in its
own text. What stands at those numbers depends on the order of the calls `init` makes and on what
boot left in its space before. -/

set_option autoImplicit false

namespace ElseOS

/-! ## `init` -/

namespace Init

inductive Call where
  | epCreate
  | frameAlloc
  | spawn (epHandle : UInt64)
  deriving DecidableEq, Repr

def creates : List Call :=
  [.epCreate, .epCreate, .epCreate, .epCreate, .frameAlloc, .epCreate, .epCreate, .epCreate, .frameAlloc]

/-- `main`, up to the loop in which it receives. -/
def main : List Call := creates ++ List.replicate 8 (.spawn usizeMax)

/-- The step of the kernel that carries the call out. `SYS_FRAME_ALLOC` grants a whole page. -/
def Call.madeBy : Call → Op → Bool
  | .epCreate, .sysEndpointCreate => true
  | .frameAlloc, .grantMemory _ len => len = 4096
  | .spawn epHandle, .spawnChild handle _ _ _ => handle = epHandle
  | _, _ => false

def follows : List Call → List Op → Bool
  | _, [] => true
  | call :: calls, op :: ops => call.madeBy op && follows calls ops
  | [], _ :: _ => false

end Init

namespace Kernel

def gives (k : Kernel) : Op → Option Capability
  | .sysEndpointCreate => some (.endpoint k.nextEndpoint .ALL)
  | .grantMemory start len => some (.memoryMap start len)
  | .spawnChild _ _ _ _ => some (.process k.nextProcess .WAIT)
  | _ => none

def grants : Op → Bool
  | .sysEndpointCreate | .grantMemory _ _ | .spawnChild _ _ _ _ => true
  | _ => false

def initSteps (history : List (Kernel × Op)) : List (Kernel × Op) :=
  history.filter fun entry => entry.1.caller = some 0 && grants entry.2

def FollowsInit (history : List (Kernel × Op)) : Prop :=
  Init.follows Init.main ((initSteps history).map Prod.snd) = true

def granted (history : List (Kernel × Op)) : List Capability :=
  (initSteps history).filterMap fun entry => entry.1.gives entry.2

variable {k after : Kernel} {op : Op} {cs : CSpaceRef} {cap : Capability} {history past : List (Kernel × Op)}
  {bootCr3 : UInt64} {info : BootInfo} {image : InitImage}

/-! ## The space of `init` -/

theorem lookup_of_caller (isCaller : k.caller = some cs) (handle : UInt64) :
    ∃ current, k.lookup handle = some (current, cs, (k.cspaces cs).get handle.toNat) := by
  obtain ⟨current, isCurrent, has⟩ := Option.bind_eq_some_iff.mp isCaller
  exact ⟨current, by simp [lookup, isCurrent, has]⟩

theorem cspaces_of_spawn {epHandle entryPoint cr3 stackBase : UInt64} (isCaller : k.caller = some cs)
    (taken : k.step (.spawnChild epHandle entryPoint cr3 stackBase) = some after) :
    after.nextCSpace = k.nextCSpace + 1 ∧ after.cspaces = Function.update (k.spawnedSpaces cs epHandle) cs
      ((k.spawnedSpaces cs epHandle cs).insert (.process k.nextProcess .WAIT)).1 := by
  obtain ⟨_, rfl⟩ := of_whenRunning taken
  obtain ⟨current, found⟩ := lookup_of_caller isCaller epHandle
  have count : (k.spawnChild epHandle entryPoint cr3 stackBase).1.nextCSpace = k.nextCSpace + 1 := by
    simp only [spawnChild, found]
    split <;> rfl
  refine ⟨count, ?_⟩
  have grants := @grants_spawnChild k epHandle entryPoint cr3 stackBase
  generalize isObjects : (k.spawnChild epHandle entryPoint cr3 stackBase).1.objects = objects at grants
  have spaces : (k.spawnChild epHandle entryPoint cr3 stackBase).1.cspaces = objects.cspaces := isObjects ▸ rfl
  have counted : (k.spawnChild epHandle entryPoint cr3 stackBase).1.nextCSpace = objects.nextCSpace := isObjects ▸ rfl
  rw [spaces]
  cases grants with
  | unchanged => exact absurd (counted.symm.trans count) (Nat.ne_of_lt (Nat.lt_succ_self _))
  | child alsoCaller =>
    cases isCaller.symm.trans alsoCaller
    rfl

theorem get_spawnedSpaces {handle : Nat} (known : cs < k.nextCSpace) (held : (k.cspaces cs).get handle = some cap) :
    (k.spawnedSpaces cs usizeMax k.nextCSpace).get handle = some cap := by
  unfold spawnedSpaces
  generalize spawnSpace (grantedCap ((k.cspaces cs).get usizeMax.toNat)) = space
  rw [if_pos rfl, Function.update_self, Function.update_of_ne (Nat.ne_of_lt known), CSpace.get_cloneInto,
    if_pos (Nat.zero_le _)]
  exact Option.or_eq_some_iff.mpr (.inl held)

theorem cspaces_of_gives (populated : k.Populated) (isCaller : k.caller = some cs) (given : k.gives op = some cap)
    (taken : k.step op = some after) : after.cspaces cs = ((k.cspaces cs).insert cap).1 := by
  cases op with
  | sysEndpointCreate =>
    cases given
    obtain ⟨_, rfl⟩ := of_whenRunning taken
    obtain ⟨current, found⟩ := lookup_of_caller isCaller 0
    simp [sysEndpointCreate, found, setCSpace]
  | grantMemory start len =>
    cases given
    obtain ⟨_, rfl⟩ := of_whenRunning taken
    obtain ⟨current, found⟩ := lookup_of_caller isCaller 0
    simp [grantMemory, found, setCSpace]
  | spawnChild epHandle entryPoint cr3 stackBase =>
    cases given
    rw [(cspaces_of_spawn isCaller taken).2, Function.update_self, spawnedSpaces_of_lt _ (populated.caller_lt isCaller)]
  | _ => cases given

theorem cspaces_of_others (known : cs < k.nextCSpace)
    (other : k.caller = some cs → k.gives op = none) (taken : k.step op = some after) :
    after.cspaces cs = k.cspaces cs := by
  have grants := grants_of_step taken
  generalize isObjects : after.objects = objects at grants
  have isAfter : after.cspaces = objects.cspaces := isObjects ▸ rfl
  rw [isAfter]
  have elsewhere : ∀ {caller}, k.caller = some caller → k.gives op ≠ none → cs ≠ caller := by
    rintro caller isCaller gives rfl
    exact gives (other isCaller)
  cases grants with
  | unchanged | kernelThread => rfl
  | endpoint isCaller | memory isCaller => exact Function.update_of_ne (elsewhere isCaller nofun) _ _
  | child isCaller =>
    exact (Function.update_of_ne (elsewhere isCaller nofun) _ _).trans (spawnedSpaces_of_lt _ known)

def place (caps : List Capability) (cspace : CSpace) : CSpace :=
  caps.foldl (fun cspace cap => (cspace.insert cap).1) cspace

theorem place_append (caps more : List Capability) (cspace : CSpace) :
    place (caps ++ more) cspace = place more (place caps cspace) := List.foldl_append

theorem get_place {caps : List Capability} {cspace : CSpace} {handle : Nat} (held : cspace.get handle = some cap) :
    (place caps cspace).get handle = some cap := by
  induction caps generalizing cspace with
  | nil => exact held
  | cons first rest ih =>
    refine ih ?_
    rw [CSpace.get_insert, if_neg]
    · exact held
    · rintro rfl
      rw [CSpace.get_insert_fresh] at held
      cases held

theorem initSteps_append (entry : Kernel × Op) : initSteps (past ++ [entry]) =
    initSteps past ++ if entry.1.caller = some 0 ∧ grants entry.2 = true then [entry] else [] := by
  simp only [initSteps, List.filter_append, List.filter_cons, List.filter_nil, Bool.and_eq_true, decide_eq_true_eq]

theorem granted_append (entry : Kernel × Op) : granted (past ++ [entry]) =
    granted past ++ if entry.1.caller = some 0 then (entry.1.gives entry.2).toList else [] := by
  unfold granted
  rw [initSteps_append, List.filterMap_append]
  congr 1
  by_cases own : entry.1.caller = some 0
  · obtain ⟨before, op⟩ := entry
    cases op <;> simp [own, grants, gives]
  · simp [own]

theorem nextCSpace_pos_of_run (run : KernelRun bootCr3 info image history k) : 0 < k.nextCSpace :=
  run.always (fun k => 0 < k.nextCSpace) Nat.one_pos fun positive taken =>
    Nat.lt_of_lt_of_le positive (counters_of_grants (grants_of_step taken)).2.2

/-- In every run the space of `init` is boot's with what `init` asked for, in that order. -/
theorem cspace_init_of_run (run : KernelRun bootCr3 info image history k) :
    k.cspaces 0 = place (granted history) (info.cspace .new) := by
  refine run.induct (fun history k => k.cspaces 0 = place (granted history) (info.cspace .new)) rfl ?_
  intro past k op after earlier placed taken
  rw [granted_append, place_append, ← placed]
  by_cases own : k.caller = some 0
  · cases given : k.gives op with
    | none =>
      rw [cspaces_of_others (nextCSpace_pos_of_run earlier) (fun _ => given) taken]
      simp [own, place]
    | some cap =>
      rw [cspaces_of_gives (populated_of_run earlier) own given taken]
      simp [own, place]
  · rw [cspaces_of_others (nextCSpace_pos_of_run earlier) (fun isCaller => absurd isCaller own) taken]
    simp [own, place]

/-! ## The spaces of its children -/

/-- The process was spawned by `init` with everything `init` had. -/
def ChildOfInit (history : List (Kernel × Op)) (child : CSpaceRef) : Prop :=
  ∃ entry ∈ history, entry.1.Spawns entry.2 0 child usizeMax

def PassesOn (k : Kernel) (entry : Kernel × Op) : Prop :=
  ∀ parent child, entry.1.Spawns entry.2 parent child usizeMax → child < k.nextCSpace ∧
    ∀ handle cap, (entry.1.cspaces parent).get handle = some cap → (k.cspaces child).get handle = some cap

theorem passesOn_of_spawn (populated : k.Populated) (taken : k.step op = some after) : after.PassesOn (k, op) := by
  rintro parent child ⟨isCaller, rfl, entryPoint, cr3, stackBase, rfl⟩
  have known := populated.caller_lt isCaller
  obtain ⟨count, spaces⟩ := cspaces_of_spawn isCaller taken
  refine ⟨count ▸ Nat.lt_succ_self _, fun handle cap held => ?_⟩
  rw [spaces, Function.update_of_ne (Nat.ne_of_gt known)]
  exact get_spawnedSpaces known held

theorem PassesOn.endures {entry : Kernel × Op} (passesOn : k.PassesOn entry) (endures : k.Endures after) :
    after.PassesOn entry := by
  intro parent child spawns
  obtain ⟨known, kept⟩ := passesOn parent child spawns
  exact ⟨Nat.lt_of_lt_of_le known endures.1,
    fun handle cap held => endures.2 child known handle cap (kept handle cap held)⟩

theorem passesOn_of_run (run : KernelRun bootCr3 info image history k) : ∀ entry ∈ history, k.PassesOn entry := by
  refine run.induct (fun history k => ∀ entry ∈ history, k.PassesOn entry) (fun _ member => nomatch member) ?_
  intro past k op after earlier passesOn taken entry member
  have populated := populated_of_run earlier
  rcases List.mem_append.mp member with old | new
  · exact (passesOn entry old).endures (endures_of_step populated taken)
  · rw [List.mem_singleton.mp new]
    exact passesOn_of_spawn populated taken

end Kernel

/-! ## What stands where -/

inductive Link where
  | ep | kbdEp | ataEp | vfsEp | rtlEp | netEp | testEp
  deriving DecidableEq, Repr

inductive SharedPage where
  | shm | netShm
  deriving DecidableEq, Repr

theorem Link.injective_of_increasing (number : Link → Nat) (ep : number .ep < number .kbdEp)
    (kbd : number .kbdEp < number .ataEp) (ata : number .ataEp < number .vfsEp) (vfs : number .vfsEp < number .rtlEp)
    (rtl : number .rtlEp < number .netEp) (net : number .netEp < number .testEp) : number.Injective := by
  intro left right same
  cases left <;> cases right <;> first | rfl | omega

structure Wiring where
  endpoint : Link → EndpointRef
  page : SharedPage → UInt64

namespace Wiring

def caps (w : Wiring) : List Capability :=
  [.endpoint (w.endpoint .ep) .ALL, .endpoint (w.endpoint .kbdEp) .ALL, .endpoint (w.endpoint .ataEp) .ALL,
    .endpoint (w.endpoint .vfsEp) .ALL, .memoryMap (w.page .shm) 4096, .endpoint (w.endpoint .rtlEp) .ALL,
    .endpoint (w.endpoint .netEp) .ALL, .endpoint (w.endpoint .testEp) .ALL, .memoryMap (w.page .netShm) 4096]

/-- The handles they get: without a framebuffer handle 3 is free. -/
def handles (info : BootInfo) : List Nat :=
  match info.framebuffer with
  | some _ => [0, 7, 8, 9, 10, 11, 12, 13, 14]
  | none => [0, 3, 7, 8, 9, 10, 11, 12, 13]

def layout (w : Wiring) (info : BootInfo) : List (Nat × Capability) := info.grants ++ (handles info).zip w.caps

theorem get_layout (w : Wiring) (info : BootInfo) :
    ∀ entry ∈ w.layout info, (Kernel.place w.caps (info.cspace .new)).get entry.1 = some entry.2 := by
  obtain ⟨framebuffer, nic, dmaPoolPhys⟩ := info
  cases framebuffer <;> cases nic <;>
    simp [layout, handles, caps, BootInfo.cspace, BootInfo.grants, CSpace.insertAt, Base.Slots.insertAt, CSpace.new,
      List.replicate_succ, Kernel.place, CSpace.insert, Base.Slots.insert, Base.Slots.insertFrom, CSpace.get]

end Wiring

namespace Init

theorem made_of_follows {calls : List Call} {ops more : List Op} {op : Op}
    (all : follows calls (ops ++ op :: more) = true) :
    ∃ call, calls[ops.length]? = some call ∧ call.madeBy op = true := by
  induction ops generalizing calls with
  | nil =>
    cases calls with
    | nil => cases all
    | cons call calls =>
      rw [List.nil_append, follows, Bool.and_eq_true] at all
      exact ⟨call, rfl, all.1⟩
  | cons first ops ih =>
    cases calls with
    | nil => cases all
    | cons call calls =>
      rw [List.cons_append, follows, Bool.and_eq_true] at all
      exact ih all.2

theorem madeBy_epCreate {op : Op} : Call.epCreate.madeBy op = true ↔ op = .sysEndpointCreate := by
  cases op <;> simp [Call.madeBy]

theorem madeBy_frameAlloc {op : Op} : Call.frameAlloc.madeBy op = true ↔ ∃ start, op = .grantMemory start 4096 := by
  cases op <;> simp [Call.madeBy]

theorem created_of_spawn {ops more : List Op} {epHandle entryPoint cr3 stackBase : UInt64}
    (all : follows main (ops ++ .spawnChild epHandle entryPoint cr3 stackBase :: more) = true) : 9 ≤ ops.length := by
  by_contra short
  obtain ⟨call, placed, made⟩ := made_of_follows all
  -- the spawn would stand where `main` creates something
  rw [main, List.getElem?_append_left (by simp [creates]; omega)] at placed
  have creating := List.mem_of_getElem? placed
  simp only [creates, List.mem_cons, List.not_mem_nil, or_false] at creating
  rcases creating with rfl | rfl | rfl | rfl | rfl | rfl | rfl | rfl | rfl <;> cases made

end Init

namespace Kernel

variable {k after : Kernel} {op : Op} {history past : List (Kernel × Op)} {bootCr3 : UInt64} {info : BootInfo}
    {image : InitImage}

def Precedes (earlier later : Kernel × Op) : Prop :=
  earlier.2 = .sysEndpointCreate → earlier.1.caller = some 0 → earlier.1.nextEndpoint < later.1.nextEndpoint

theorem nextEndpoint_of_create (isCaller : k.caller = some 0) (taken : k.step .sysEndpointCreate = some after) :
    k.nextEndpoint < after.nextEndpoint := by
  obtain ⟨_, rfl⟩ := of_whenRunning taken
  obtain ⟨current, found⟩ := lookup_of_caller isCaller 0
  simp [sysEndpointCreate, found]

theorem precedes_of_run (run : KernelRun bootCr3 info image history k) (op : Op) :
    (history ++ [(k, op)]).Pairwise Precedes := by
  refine run.induct (fun history k => ∀ op, (history ++ [(k, op)]).Pairwise Precedes)
    (fun op => List.pairwise_singleton _ _) ?_ op
  intro past k taken after earlier ordered moved op
  rw [List.pairwise_append]
  refine ⟨ordered taken, List.pairwise_singleton _ _, ?_⟩
  intro entry member next isNext created isCaller
  rw [List.mem_singleton.mp isNext]
  rcases List.mem_append.mp member with old | new
  · have before := (List.pairwise_append.mp (ordered taken)).2.2 entry old (k, taken) (by simp) created isCaller
    exact Nat.lt_of_lt_of_le before (counters_of_grants (grants_of_step moved)).1
  · cases List.mem_singleton.mp new
    cases created
    exact nextEndpoint_of_create isCaller moved

/-- The first nine capabilities `init` gets are seven endpoints, no two the same, and two pages. -/
theorem wired_of_follows {steps : List (Kernel × Op)} (follows : Init.follows Init.main (steps.map Prod.snd) = true)
    (enough : 9 ≤ steps.length) (own : ∀ entry ∈ steps, entry.1.caller = some 0) (ordered : steps.Pairwise Precedes) :
    ∃ w : Wiring, w.endpoint.Injective ∧ (steps.take 9).filterMap (fun entry => entry.1.gives entry.2) = w.caps := by
  obtain ⟨⟨k0, op0⟩, ⟨k1, op1⟩, ⟨k2, op2⟩, ⟨k3, op3⟩, ⟨k4, op4⟩, ⟨k5, op5⟩, ⟨k6, op6⟩, ⟨k7, op7⟩, ⟨k8, op8⟩,
    rest, rfl⟩ :
      ∃ s0 s1 s2 s3 s4 s5 s6 s7 s8 rest, steps = s0 :: s1 :: s2 :: s3 :: s4 :: s5 :: s6 :: s7 :: s8 :: rest := by
    rcases steps with _ | ⟨s0, _ | ⟨s1, _ | ⟨s2, _ | ⟨s3, _ | ⟨s4, _ | ⟨s5, _ | ⟨s6, _ | ⟨s7, _ | ⟨s8, rest⟩⟩⟩⟩⟩⟩⟩⟩⟩
    all_goals first | exact ⟨_, _, _, _, _, _, _, _, _, _, rfl⟩ | simp at enough
  simp only [List.map_cons, Init.main, Init.creates, List.cons_append, Init.follows, Bool.and_eq_true,
    Init.madeBy_epCreate, Init.madeBy_frameAlloc] at follows
  obtain ⟨rfl, rfl, rfl, rfl, ⟨shm, rfl⟩, rfl, rfl, rfl, ⟨netShm, rfl⟩, _⟩ := follows
  refine ⟨⟨fun
    | .ep => k0.nextEndpoint | .kbdEp => k1.nextEndpoint | .ataEp => k2.nextEndpoint | .vfsEp => k3.nextEndpoint
    | .rtlEp => k5.nextEndpoint | .netEp => k6.nextEndpoint | .testEp => k7.nextEndpoint,
    fun | .shm => shm | .netShm => netShm⟩, ?_, rfl⟩
  simp only [List.pairwise_cons, List.forall_mem_cons] at own ordered
  obtain ⟨o0, o1, o2, o3, _, o5, o6, _⟩ := own
  obtain ⟨⟨p0, _⟩, ⟨p1, _⟩, ⟨p2, _⟩, ⟨_, p3, _⟩, _, ⟨p5, _⟩, ⟨p6, _⟩, _⟩ := ordered
  exact Link.injective_of_increasing _ (p0 rfl o0) (p1 rfl o1) (p2 rfl o2) (p3 rfl o3) (p5 rfl o5) (p6 rfl o6)

theorem initSteps_split {entry : Kernel × Op} {later : List (Kernel × Op)} (own : entry.1.caller = some 0)
    (given : grants entry.2 = true) :
    initSteps (past ++ entry :: later) = initSteps past ++ entry :: initSteps later := by
  simp [initSteps, own, given]

theorem created_of_spawns {later : List (Kernel × Op)} {child : CSpaceRef} {epHandle : UInt64}
    (follows : FollowsInit (past ++ (k, op) :: later)) (spawns : k.Spawns op 0 child epHandle) :
    9 ≤ (initSteps past).length ∧ initSteps past <+: initSteps (past ++ (k, op) :: later) := by
  obtain ⟨isCaller, _, entryPoint, cr3, stackBase, rfl⟩ := spawns
  rw [FollowsInit, initSteps_split isCaller rfl, List.map_append] at follows
  rw [initSteps_split isCaller rfl]
  exact ⟨by simpa using Init.created_of_spawn follows, List.prefix_append _ _⟩

/-- Every child of `init` finds everything where the layout says, and all of them the same things. -/
theorem layout_of_run (run : KernelRun bootCr3 info image history k) (follows : FollowsInit history) :
    ∃ w : Wiring, w.endpoint.Injective ∧ ∀ child, ChildOfInit history child →
      ∀ entry ∈ w.layout info, (k.cspaces child).get entry.1 = some entry.2 := by
  by_cases spawned : ∃ child, ChildOfInit history child
  · have start : 9 ≤ (initSteps history).length := by
      obtain ⟨child, ⟨before, op⟩, member, spawns⟩ := spawned
      obtain ⟨past, later, rfl⟩ := List.append_of_mem member
      obtain ⟨enough, first⟩ := created_of_spawns follows spawns
      exact Nat.le_trans enough first.length_le
    have own : ∀ entry ∈ initSteps history, entry.1.caller = some 0 := by
      intro entry member
      have kept := (List.mem_filter.mp member).2
      rw [Bool.and_eq_true, decide_eq_true_eq] at kept
      exact kept.1
    have ordered : (initSteps history).Pairwise Precedes :=
      (List.pairwise_append.mp (precedes_of_run run .yieldNow)).1.sublist List.filter_sublist
    obtain ⟨w, injective, first⟩ := wired_of_follows follows start own ordered
    refine ⟨w, injective, ?_⟩
    rintro child ⟨⟨before, op⟩, member, spawns⟩ entry placed
    refine (passesOn_of_run run _ member 0 child spawns).2 entry.1 entry.2 ?_
    obtain ⟨past, later, rfl⟩ := List.append_of_mem member
    obtain ⟨enough, more, grown⟩ := created_of_spawns follows spawns
    have begins : granted past = w.caps ++ ((initSteps past).drop 9).filterMap fun entry => entry.1.gives entry.2 := by
      rw [← first, ← grown, List.take_append_of_le_length enough, ← List.filterMap_append,
        List.take_append_drop, granted]
    dsimp only
    rw [cspace_init_of_run run.before_entry, begins, place_append]
    exact get_place (w.get_layout info entry placed)
  · -- nobody was spawned yet
    refine ⟨⟨fun | .ep => 0 | .kbdEp => 1 | .ataEp => 2 | .vfsEp => 3 | .rtlEp => 4 | .netEp => 5 | .testEp => 6,
      fun _ => 0⟩, ?_, fun child isChild => absurd ⟨child, isChild⟩ spawned⟩
    exact Link.injective_of_increasing _ (by decide) (by decide) (by decide) (by decide) (by decide) (by decide)

end Kernel

/-! ## What the services look for -/

inductive Service where
  | terminalService | keyboardService | ataService | fat16Service | storageTest | rtl8139Service | networkService
  | networkTest
  deriving DecidableEq, Repr

/-- What a service expects of a handle. -/
inductive Need where
  /-- `sys_wait_irq` waits for this line. -/
  | irq (line : UInt8)
  | port (number : UInt16) (size : UInt8)
  /-- `sys_map_phys` maps the memory from this address on, of which so many bytes are used. -/
  | device (physAddr length start used : UInt64)
  /-- `sys_map_phys` maps the page that `init` allocated. -/
  | page (shared : SharedPage)
  | send (link : Link)
  | receive (link : Link)
  deriving DecidableEq, Repr

namespace Need

/-- What `SYS_MAP_PHYS` maps, if it maps something. -/
def mapped (held : Option Capability) (physAddr length : UInt64) : Option (UInt64 × UInt64) :=
  match held with
  | some (.memoryMap start len) =>
    let actual := Machine.actualRange start len physAddr length
    if Machine.mapAllowed start len actual then some actual else none
  | _ => none

def connected (held : Option Capability) (ep : EndpointRef) (right : Rights) : Bool :=
  match held with
  | some (.endpoint found rights) => found = ep && rights.contains right
  | _ => false

def metBy (w : Wiring) (held : Option Capability) : Need → Bool
  | .irq line => held = some (.interrupt line)
  | .port number size => Machine.portAllowed held number size
  | .device physAddr length start used =>
    (mapped held physAddr length).any fun actual => actual.1 = start && used ≤ actual.2
  | .page shared =>
    (mapped held Machine.u64Max Machine.u64Max).any fun actual => actual.1 = w.page shared && 4096 ≤ actual.2
  | .send link => connected held (w.endpoint link) .SEND
  | .receive link => connected held (w.endpoint link) .RECEIVE

def created : Need → Bool
  | .page _ | .send _ | .receive _ => true
  | _ => false

def link : Need → Option Link
  | .send link | .receive link => some link
  | _ => none

end Need

/-- Registers of the network card that its driver reads or writes, with the widths of the accesses. -/
def Rtl8139.registers : List (UInt16 × UInt8) :=
  [(0x00, 1), (0x01, 1), (0x02, 1), (0x03, 1), (0x04, 1), (0x05, 1), (0x10, 4), (0x14, 4), (0x18, 4), (0x1C, 4),
    (0x20, 4), (0x24, 4), (0x28, 4), (0x2C, 4), (0x30, 4), (0x37, 1), (0x38, 2), (0x3C, 2), (0x3E, 2),
    (0x44, 4), (0x52, 1)]

namespace Service

/-- The handles in the text of a service, and what it does with them. -/
def needs (info : BootInfo) : Service → List (Nat × Need)
  | .terminalService =>
    match info.framebuffer with
    | some fb => [(3, .device fb.physicalAddress fb.size fb.physicalAddress fb.size), (4, .receive .kbdEp)]
    -- `sys_framebuffer_info` fails, and it exits
    | none => []
  | .keyboardService => [(1, .irq 1), (2, .port 0x64 1), (2, .port 0x60 1), (4, .send .kbdEp)]
  | .ataService =>
    [(4, .irq 14), (5, .port 0x1F0 2), (5, .port 0x1F2 1), (5, .port 0x1F3 1), (5, .port 0x1F4 1), (5, .port 0x1F5 1),
      (5, .port 0x1F6 1), (5, .port 0x1F7 1), (8, .receive .ataEp), (8, .send .ataEp), (10, .page .shm)]
  | .fat16Service =>
    [(8, .send .ataEp), (8, .receive .ataEp), (9, .receive .vfsEp), (9, .send .vfsEp), (10, .page .shm)]
  | .storageTest => [(9, .send .vfsEp), (9, .receive .vfsEp), (10, .page .shm)]
  | .rtl8139Service =>
    match info.nic with
    | some nic =>
      Rtl8139.registers.map (fun register => (21, .port (nic.bar0Base.toUInt16 + register.1) register.2)) ++
        [(20, .irq nic.irqLine), (22, .device Machine.u64Max Machine.u64Max info.dmaPoolPhys 24576),
          (11, .receive .rtlEp), (12, .send .netEp), (14, .page .netShm)]
    -- `sys_cap_info` of handle 21 fails, and it stops
    | none => []
  | .networkService => [(11, .send .rtlEp), (12, .receive .netEp), (13, .send .testEp), (14, .page .netShm)]
  | .networkTest => [(12, .send .netEp), (13, .receive .testEp), (14, .page .netShm)]

/-- The ports of the network card hold all its registers. -/
def Reachable (nic : PciDevice) : Prop :=
  nic.bar0IsIo = true ∧ 0x53 ≤ nic.bar0Size.toNat ∧ nic.bar0Size.toNat < 0x10000 ∧
    nic.bar0Base.toNat + nic.bar0Size.toNat ≤ 0x10000

theorem portAllowed_register {nic : PciDevice} (reachable : Reachable nic) {register : UInt16 × UInt8}
    (known : register ∈ Rtl8139.registers) :
    Machine.portAllowed (some nic.bar0Cap) (nic.bar0Base.toUInt16 + register.1) register.2 = true := by
  have all :
    Rtl8139.registers.all (fun entry => decide (entry.1.toNat < 0x53 ∧ entry.1.toNat + entry.2.toNat ≤ 0x53)) := by
    decide
  have bound := of_decide_eq_true (List.all_eq_true.mp all register known)
  obtain ⟨isIo, long, short, inside⟩ := reachable
  rw [PciDevice.bar0Cap, if_pos isIo]
  simp only [Machine.portAllowed, decide_true, Bool.true_or, Bool.and_true, Bool.and_eq_true, decide_eq_true_eq,
    UInt16.le_iff_toNat_le, UInt32.le_iff_toNat_le, UInt16.toNat_add, UInt32.toNat_add, UInt16.toNat_toUInt32,
    UInt8.toNat_toUInt32, UInt32.toNat_toUInt16]
  omega

theorem saturatingAdd_ge (start len : UInt64) : start ≤ Machine.saturatingAdd start len := by
  unfold Machine.saturatingAdd
  split
  · rw [UInt64.le_iff_toNat_le, UInt64.toNat_add]
    omega
  · rw [UInt64.le_iff_toNat_le]
    have bound := start.toNat_lt
    change _ ≤ 2 ^ 64 - 1
    omega

theorem mapped_own (start len : UInt64) :
    Need.mapped (some (.memoryMap start len)) Machine.u64Max Machine.u64Max = some (start, len) := by
  simp [Need.mapped, Machine.actualRange, Machine.mapAllowed, saturatingAdd_ge]

theorem mapped_exact (start len : UInt64) :
    Need.mapped (some (.memoryMap start len)) start len = some (start, len) := by
  simp [Need.mapped, Machine.actualRange, Machine.mapAllowed, saturatingAdd_ge]

theorem connected_send (found ep : EndpointRef) :
    Need.connected (some (.endpoint found .ALL)) ep .SEND = decide (found = ep) := by
  rw [Need.connected, show Rights.ALL.contains .SEND = true by decide, Bool.and_true]

theorem connected_receive (found ep : EndpointRef) :
    Need.connected (some (.endpoint found .ALL)) ep .RECEIVE = decide (found = ep) := by
  rw [Need.connected, show Rights.ALL.contains .RECEIVE = true by decide, Bool.and_true]

variable {info : BootInfo} {w : Wiring} {space : CSpace}

def Finds (w : Wiring) (info : BootInfo) (space : CSpace) (need : Nat × Need) : Prop :=
  need.2.metBy w (space.get need.1) = true ↔
    (need.2.created = true → info.framebuffer.isSome = true ∧ need.2.link ≠ some .kbdEp)

theorem finds_driver {nic : PciDevice} (isNic : info.nic = some nic) (reachable : Reachable nic)
    (placed : ∀ entry ∈ w.layout info, space.get entry.1 = some entry.2) :
    (∀ register ∈ Rtl8139.registers, Finds w info space (21, .port (nic.bar0Base.toUInt16 + register.1) register.2)) ∧
    Finds w info space (20, .irq nic.irqLine) ∧
    Finds w info space (22, .device Machine.u64Max Machine.u64Max info.dmaPoolPhys 24576) := by
  have granted : ∀ entry ∈ [(20, .interrupt nic.irqLine), (21, nic.bar0Cap), (22, .memoryMap info.dmaPoolPhys 65536)],
      space.get entry.1 = some entry.2 := by
    intro entry member
    refine placed entry (List.mem_append_left _ (List.mem_append_right _ ?_))
    rw [isNic]
    exact member
  simp only [List.forall_mem_cons] at granted
  obtain ⟨line, ports, pool, _⟩ := granted
  refine ⟨fun register known => ?_, ?_, ?_⟩
  · simp [Finds, Need.metBy, Need.created, ports, portAllowed_register reachable known]
  · simp [Finds, Need.metBy, Need.created, line]
  · simp [Finds, Need.metBy, Need.created, pool, mapped_own]

theorem finds_of_layout (injective : w.endpoint.Injective) (reachable : ∀ nic, info.nic = some nic → Reachable nic)
    (placed : ∀ entry ∈ w.layout info, space.get entry.1 = some entry.2) (service : Service) :
    ∀ need ∈ service.needs info, need.1 ≠ 14 ∨ info.framebuffer.isSome = true → Finds w info space need := by
  have driver := fun nic isNic => finds_driver isNic (reachable nic isNic) placed
  obtain ⟨framebuffer, nic, dmaPoolPhys⟩ := info
  cases framebuffer
  all_goals
    simp only [Wiring.layout, BootInfo.grants, Wiring.handles, Wiring.caps, List.zip_cons_cons, List.zip_nil_left,
      List.cons_append, List.nil_append, List.append_nil, List.forall_mem_append, List.forall_mem_cons] at placed
    obtain ⟨boot, own⟩ := placed
    cases service
  case none.rtl8139Service | some.rtl8139Service =>
    cases nic with
    | none => exact nofun
    | some nic =>
      obtain ⟨ports, line, pool⟩ := driver nic rfl
      simp only [needs, List.forall_mem_append, List.forall_mem_map, List.forall_mem_cons]
      refine ⟨fun register known _ => ports register known, fun _ => line, fun _ => pool, ?_⟩
      simp [Finds, Need.metBy, own, Need.created, Need.link, connected_send, connected_receive,
        injective.eq_iff, mapped_own]
  all_goals
    simp [needs, Finds, Need.metBy, boot, own, Need.created, Need.link, connected_send, connected_receive,
      injective.eq_iff, mapped_exact, mapped_own]
  all_goals and_intros <;> rfl

end Service

namespace Kernel

variable {k : Kernel} {history : List (Kernel × Op)} {bootCr3 : UInt64} {info : BootInfo} {image : InitImage}
  {child : CSpaceRef}

/-- A child of `init` holds the disk's interrupt at handle 4, for as long as it lives. -/
theorem diskInterrupt_of_run (run : KernelRun bootCr3 info image history k) (isChild : ChildOfInit history child) :
    (k.cspaces child).get 4 = some (.interrupt 14) := by
  obtain ⟨⟨before, op⟩, member, spawns⟩ := isChild
  refine (passesOn_of_run run _ member 0 child spawns).2 4 _ ?_
  obtain ⟨past, later, rfl⟩ := List.append_of_mem member
  dsimp only
  rw [cspace_init_of_run run.before_entry]
  refine get_place ?_
  obtain ⟨framebuffer, nic, dmaPoolPhys⟩ := info
  cases framebuffer <;> cases nic <;>
    simp [BootInfo.cspace, BootInfo.grants, CSpace.insertAt, Base.Slots.insertAt, CSpace.new,
      List.replicate_succ, CSpace.get]

/-- No service ever sends or receives a keystroke: in every state of every run a call of theirs on handle 4 fails and
changes nothing. -/
theorem keystrokes_refused (run : KernelRun bootCr3 info image history k) (isChild : ChildOfInit history child)
    (isCaller : k.caller = some child) (msg : Message) :
    k.sysSend 4 msg = (k, .done (.error .wrongType)) ∧ k.sysRecv 4 = (k, .done (.error .wrongType)) := by
  obtain ⟨current, found⟩ := lookup_of_caller isCaller 4
  have held : (k.cspaces child).get (4 : UInt64).toNat = some (.interrupt 14) := diskInterrupt_of_run run isChild
  rw [held] at found
  constructor
  · rw [sysSend, found]
  · rw [sysRecv, found]

/-! ## A boot -/

def wiringInfo : BootInfo :=
  ⟨some ⟨0xFD000000, 1024, 768, 4096, 32, 0x300000⟩, some ⟨0xC000, 0x100, true, 11⟩, 0x1000000⟩

def wiringSpawn : Op := .spawnChild usizeMax 0x400000 0x3000 0x20000

def wiringCreates : List Op :=
  [.yieldNow, .dispatch 1, .sysEndpointCreate, .sysEndpointCreate, .sysEndpointCreate, .sysEndpointCreate,
    .grantMemory 0x200000 4096, .sysEndpointCreate, .sysEndpointCreate, .sysEndpointCreate, .grantMemory 0x201000 4096]

def wiringRest : List Op := List.replicate 7 wiringSpawn ++ [.sysRecv 0, .dispatch 1]

def byInit (k : Kernel) (op : Op) : Bool := !grants op || k.caller == some 0

theorem initSteps_of_guarded (guarded : Base.Run.Guarded (fun k op => byInit k op = true) history) :
    (initSteps history).map Prod.snd = (history.map Prod.snd).filter grants := by
  rw [List.filter_map]
  refine congrArg (List.map Prod.snd) (List.filter_congr fun entry member => ?_)
  have first := guarded entry member
  unfold byInit at first
  cases made : grants entry.2 <;> simp_all

theorem wiring_run : ∃ history k,
    KernelRun 0x1000 wiringInfo ⟨0x400000, 0x2000, 0x10000⟩ history k ∧
    history.map Prod.snd = wiringCreates ++ [wiringSpawn] ++ wiringRest ∧
    FollowsInit history ∧ ChildOfInit history 1 ∧ k.caller = some 1 := by
  obtain ⟨early, before, first, earlyOps, earlyGuard, facts⟩ := Base.Run.of_check step byInit
    (booted 0x1000 wiringInfo ⟨0x400000, 0x2000, 0x10000⟩) wiringCreates
    (fun k => k.caller == some 0 && k.nextCSpace == 1 && (k.step wiringSpawn).any fun next =>
      (Base.execute step byInit next wiringRest).any fun after => after.caller == some 1) (by decide +kernel)
  rw [Bool.and_eq_true, Bool.and_eq_true, beq_iff_eq, beq_iff_eq, Option.any_eq_true] at facts
  obtain ⟨⟨isCaller, fresh⟩, next, spawned, continues⟩ := facts
  obtain ⟨late, k, last, lateOps, lateGuard, isNext⟩ := Base.Run.of_check step byInit next wiringRest _ continues
  have ops : (early ++ [(before, wiringSpawn)] ++ late).map Prod.snd = wiringCreates ++ [wiringSpawn] ++
    wiringRest := by
    simp [earlyOps, lateOps]
  refine ⟨early ++ [(before, wiringSpawn)] ++ late, k, (first.next spawned).trans last, ops, ?_, ?_, eq_of_beq isNext⟩
  · have guarded : Base.Run.Guarded (fun k op => byInit k op = true) (early ++ [(before, wiringSpawn)] ++ late) := by
      intro entry member
      rcases List.mem_append.mp member with old | new
      · refine ((Base.Run.guarded_append _ _ _ _).mpr ⟨earlyGuard, ?_⟩) entry old
        simp [byInit, isCaller]
      · exact lateGuard entry new
    rw [FollowsInit, initSteps_of_guarded guarded, ops]
    decide +kernel
  · exact ⟨(before, wiringSpawn), by simp, isCaller, fresh.symm, _, _, _, rfl⟩

theorem keystrokes_refused_terminal : ∃ history k, KernelRun 0x1000 wiringInfo ⟨0x400000, 0x2000, 0x10000⟩ history k ∧
    ChildOfInit history 1 ∧ k.caller = some 1 ∧ k.sysRecv 4 = (k, .done (.error .wrongType)) := by
  obtain ⟨history, k, run, _, _, isChild, isCaller⟩ := wiring_run
  exact ⟨history, k, run, isChild, isCaller, (keystrokes_refused run isChild isCaller .zero).2⟩

end Kernel

end ElseOS
