import ElseOS.Syscall.AddressSpaces
import ElseOS.Syscall.Mapping

/-! The windows that `SYS_MAP_PHYS` returns.

Pages are mapped for good, and `map_to` refuses a page that is mapped already. The call
turns the refusal into a panic, so two windows never share a page, but mapping a handle a
second time stops the kernel, and so does a window longer than the distance to the next. -/

set_option autoImplicit false

namespace ElseOS

open Base (Action Region)
open Base.Action (Returns)
open Memory (pageAt pageAt_toNat)

/-- What a call that passes the check asks for: pages of an address space, and the first of the
frames they are to show. -/
structure Window where
  space : Option UInt64
  first : UInt64
  pages : Nat
  frame : UInt64
  deriving DecidableEq, Repr

namespace Window

variable {paging : Paging}

def region (window : Window) : Region := ⟨window.first.toNat, 4096 * window.pages⟩

def Mapped (window : Window) (mem : Memory paging) : Prop :=
  ∃ cr3, window.space = some cr3 ∧ ∀ i < window.pages,
    mem.lookup cr3 (pageAt window.first i) = some (pageAt window.frame i, Machine.mmioFlags)

/-- The pages lie in the lower half and the frames where physical addresses do, no page is mapped
yet, and there are frames for the page tables on the way. -/
structure Vacant (window : Window) (mem : Memory paging) : Prop where
  room : window.first.toNat + 4096 * window.pages < 2 ^ 47
  addressable : window.frame.toNat + 4096 * window.pages ≤ 2 ^ 52
  stocked : mem.allocator.Stocked (3 * window.pages)
  unmapped : ∀ cr3, window.space = some cr3 → ∀ i < window.pages, mem.lookup cr3 (pageAt window.first i) = none

def vacant (window : Window) (mem : Memory paging) : Bool :=
  window.first.toNat + 4096 * window.pages < 2 ^ 47 && window.frame.toNat + 4096 * window.pages ≤ 2 ^ 52 &&
    mem.allocator.Stocked (3 * window.pages) &&
    window.space.all fun cr3 => (List.range window.pages).all fun i => (mem.lookup cr3 (pageAt window.first i)).isNone

theorem vacant_iff {window : Window} {mem : Memory paging} : window.vacant mem = true ↔ window.Vacant mem := by
  have pages : (window.space.all fun cr3 => (List.range window.pages).all fun i =>
        (mem.lookup cr3 (pageAt window.first i)).isNone) = true ↔
      ∀ cr3, window.space = some cr3 → ∀ i < window.pages, mem.lookup cr3 (pageAt window.first i) = none := by
    cases window.space <;> simp
  simp only [vacant, Bool.and_eq_true, decide_eq_true_eq, pages]
  constructor
  · rintro ⟨⟨⟨room, addressable⟩, stocked⟩, unmapped⟩
    exact ⟨room, addressable, stocked, unmapped⟩
  · rintro ⟨room, addressable, stocked, unmapped⟩
    exact ⟨⟨⟨room, addressable⟩, stocked⟩, unmapped⟩

structure Stands (window : Window) (mem : Memory paging) : Prop where
  aligned : window.first.toNat % 4096 = 0
  room : window.first.toNat + 4096 * window.pages < 2 ^ 47
  used : ∀ cr3, window.space = some cr3 → mem.allocator.InUse cr3
  mapped : window.Mapped mem

theorem Stands.grows {window : Window} {before after : Memory paging} (stands : window.Stands before)
    (ready : before.allocator.Ready) (grows : before.Grows after) : window.Stands after := by
  obtain ⟨_, kept⟩ := grows ready
  obtain ⟨cr3, space, mapped⟩ := stands.mapped
  have used := stands.used cr3 space
  refine ⟨stands.aligned, stands.room, ?_, cr3, space, fun i inside => (kept cr3 used).2 _ _ (mapped i inside)⟩
  intro other also
  rw [space] at also
  cases also
  exact (kept cr3 used).1

/-- A page cannot be in a window that was handed out and unmapped. -/
theorem Stands.disjoint {old window : Window} {mem : Memory paging} (stands : old.Stands mem)
    (aligned : window.first.toNat % 4096 = 0) (vacant : window.Vacant mem) (same : old.space = window.space) :
    old.region.Disjoint window.region := by
  intro byte covered also
  have oldAligned := stands.aligned
  have oldRoom := stands.room
  have room := vacant.room
  unfold Region.Covers Region.stop region at covered also
  dsimp only at covered also
  let i := (byte - old.first.toNat) / 4096
  let j := (byte - window.first.toNat) / 4096
  have inside : i < old.pages := by omega
  have alsoInside : j < window.pages := by omega
  have page : pageAt old.first i = pageAt window.first j := by
    apply UInt64.toNat_inj.mp
    rw [pageAt_toNat (by omega), pageAt_toNat (by omega)]
    omega
  obtain ⟨cr3, space, mapped⟩ := stands.mapped
  have absent := vacant.unmapped cr3 (same ▸ space) j alsoInside
  rw [← page, mapped i inside] at absent
  cases absent

end Window

namespace Machine

variable {paging : Paging} {platform : Platform} {m after : Machine paging} {act : Act} {window : Window}

def request (m : Machine paging) : Act → Option Window
  | .syscall regs _ =>
    if regs.rax = 11 then
      match m.kernel.lookup regs.rdi with
      | some (current, _, some (.memoryMap start len)) =>
        let actual := actualRange start len regs.rsi regs.rdx
        let virtAddr := windowAddr regs.rdi
        if mapAllowed start len actual then
          some ⟨current.cr3, virtAddr, windowPages virtAddr actual.2, containingAddress actual.1⟩
        else none
      | _ => none
    else none
  | _ => none

def vacant (m : Machine paging) (act : Act) : Bool := (m.request act).all fun window => window.vacant m.memory

/-- A call that passes the check returns the failure value, or its window: the frames are mapped
there, and every window asked for before in that address space is the same or disjoint. -/
def Answered (platform : Platform) (past : List (Machine paging × Act)) (m : Machine paging) (act : Act) : Prop :=
  ∀ regs env window, act = .syscall regs env → m.request act = some window →
    ∃ value, (m.syscallHandler platform regs env).2 = .done value ∧
      (value = 0 ∨
        (value = window.first ∧ window.Mapped (m.syscallHandler platform regs env).1.memory ∧
          ∀ entry ∈ past, ∀ old, entry.1.request entry.2 = some old → old.space = window.space →
            old = window ∨ old.region.Disjoint window.region))

theorem request_spec (asked : m.request act = some window) :
    (∃ current, m.kernel.scheduler.current = some current ∧ window.space = current.cr3) ∧
    ∃ regs env actual, act = .syscall regs env ∧ window.first = windowAddr regs.rdi ∧
      window.pages = windowPages window.first actual.2 ∧ window.frame = containingAddress actual.1 ∧
      ∀ platform, m.syscallHandler platform regs env = m.mapRange window.space window.first actual := by
  cases act with
  | syscall regs env =>
    simp only [request] at asked
    split at asked
    next call =>
      split at asked
      next current cs start len found =>
        split at asked
        next allowed =>
          cases asked
          refine ⟨⟨current, (Kernel.lookup_eq found).1, rfl⟩, regs, env, actualRange start len regs.rsi regs.rdx,
            rfl, rfl, rfl, rfl, ?_⟩
          intro platform
          rw [handler_map call, sysMapPhys, found]
          exact if_pos allowed
        next => cases asked
      next => cases asked
    next => cases asked
  | _ => cases asked

/-! ## One call -/

theorem returns_mapPage (lawful : paging.Lawful) {mem : Memory paging} {cr3 page phys : UInt64} {count : Nat}
    (small : phys.toNat < 2 ^ 52) (unmapped : mem.lookup cr3 page = none)
    (stocked : mem.allocator.Stocked (count + 3)) :
    Returns (mapPage cr3 page phys) mem fun next after => next = phys + PAGE_SIZE ∧ after.allocator.Stocked count ∧
      after.lookup cr3 = Function.update (mem.lookup cr3) page (some (containingAddress phys, mmioFlags)) := by
  have valid : PhysAddr.new phys = some phys := if_pos small
  unfold mapPage
  rw [valid, Action.expect_some_bind]
  apply (Memory.returns_expectMapTo lawful (containingAddress phys) mmioFlags unmapped stocked).bind
  rintro _ middle ⟨_, _, stillStocked, _, updated⟩
  exact Action.returns_pure ⟨rfl, stillStocked, updated⟩

theorem containingAddress_aligned {addr : UInt64} (aligned : addr.toNat % 4096 = 0) :
    containingAddress addr = addr := by
  apply UInt64.toNat_inj.mp
  rw [containingAddress_toNat]
  omega

theorem containingAddress_later {phys later : UInt64} {i : Nat} (behind : later.toNat = phys.toNat + 4096 * i) :
    containingAddress later = pageAt (containingAddress phys) i := by
  have small := later.toNat_lt
  have block := containingAddress_toNat phys
  apply UInt64.toNat_inj.mp
  rw [pageAt_toNat (by omega), containingAddress_toNat]
  omega

theorem pageAt_ne {first : UInt64} {pages i j : Nat} (room : first.toNat + 4096 * pages < 2 ^ 47) (inside : i < pages)
    (alsoInside : j < pages) (different : i ≠ j) : pageAt first i ≠ pageAt first j := by
  intro same
  have equal := congrArg UInt64.toNat same
  rw [pageAt_toNat (by omega), pageAt_toNat (by omega)] at equal
  omega

/-- A vacant window is mapped, whatever its length. What carries the loop: the pages behind are
mapped, those ahead are not, and three frames are left for each of them. -/
theorem returns_mapWindow (lawful : paging.Lawful) {mem : Memory paging} {cr3 first phys len : UInt64} {pages : Nat}
    (aligned : first.toNat % 4096 = 0) (counted : windowPages first len = pages)
    (room : first.toNat + 4096 * pages < 2 ^ 47) (addressable : (containingAddress phys).toNat + 4096 * pages ≤ 2 ^ 52)
    (stocked : mem.allocator.Stocked (3 * pages)) (unmapped : ∀ i < pages, mem.lookup cr3 (pageAt first i) = none) :
    Returns (mapWindow cr3 first phys len) mem fun _ after =>
      ∀ i < pages, after.lookup cr3 (pageAt first i) = some (pageAt (containingAddress phys) i, mmioFlags) := by
  have start := containingAddress_aligned aligned
  have block := containingAddress_toNat phys
  let Inv (i : Nat) (current : UInt64) (mem : Memory paging) : Prop :=
    current.toNat = phys.toNat + 4096 * i ∧ mem.allocator.Stocked (3 * (pages - i)) ∧
    (∀ j < pages, i ≤ j → mem.lookup cr3 (pageAt first j) = none) ∧
    ∀ j < i, mem.lookup cr3 (pageAt first j) = some (pageAt (containingAddress phys) j, mmioFlags)
  have initial : Inv 0 phys mem :=
    ⟨rfl, stocked, fun j inside _ => unmapped j inside, fun j below => absurd below (Nat.not_lt_zero j)⟩
  have once : ∀ i current mem, i < pages → Inv i current mem →
      Returns (mapPage cr3 (pageAt first i) current) mem (Inv (i + 1)) := by
    rintro i current mem inside ⟨behind, stocked, ahead, done⟩
    -- a page takes three tables at most
    have left : 3 * (pages - i) = 3 * (pages - (i + 1)) + 3 := by omega
    rw [left] at stocked
    apply (returns_mapPage lawful (by omega) (ahead i inside (Nat.le_refl i)) stocked).mono
    rintro next after ⟨rfl, stillStocked, updated⟩
    refine ⟨?_, stillStocked, ?_, ?_⟩
    · rw [UInt64.toNat_add, behind, PAGE_SIZE_toNat]
      omega
    · intro j below above
      rw [updated, Function.update_of_ne (pageAt_ne room below inside (by omega))]
      exact ahead j below (by omega)
    · intro j below
      by_cases here : j = i
      · subst here
        rw [updated, Function.update_self, containingAddress_later behind]
      · rw [updated, Function.update_of_ne (pageAt_ne room (by omega) inside here)]
        exact done j (by omega)
  have finished : Returns (mapWindow cr3 first phys len) mem (Inv pages) := by
    unfold mapWindow
    refine Memory.returns_forAddresses Inv counted ?_ ?_ initial
    · rw [start]
      exact room
    · rw [start]
      exact once
  apply finished.mono
  rintro _ after ⟨_, _, _, done⟩
  exact done

theorem windowAddr_aligned (handle : UInt64) : (windowAddr handle).toNat % 4096 = 0 := by
  have base : (0x80000000 : UInt64).toNat = 0x80000000 := rfl
  have stride : (0x1000000 : UInt64).toNat = 0x1000000 := rfl
  rw [windowAddr, UInt64.toNat_add, UInt64.toNat_mul, base, stride]
  omega

theorem stands_of_vacant (lawful : paging.Lawful) (housed : m.Housed) (asked : m.request act = some window)
    (vacant : window.Vacant m.memory) :
    ∃ regs env, act = .syscall regs env ∧ window.first.toNat % 4096 = 0 ∧ ∀ platform,
      (m.syscallHandler platform regs env).2 = .done window.first ∧
      window.Stands (m.syscallHandler platform regs env).1.memory := by
  obtain ⟨⟨current, isCurrent, caller⟩, regs, env, actual, rfl, first, pages, frame, served⟩ := request_spec asked
  have aligned : window.first.toNat % 4096 = 0 := first ▸ windowAddr_aligned regs.rdi
  refine ⟨regs, env, rfl, aligned, ?_⟩
  intro platform
  obtain ⟨cr3, space, used⟩ : ∃ cr3, window.space = some cr3 ∧ m.memory.allocator.InUse cr3 := by
    rw [caller]
    exact housed.tables current.identity
      ⟨.current, by rw [Kernel.roster_current isCurrent]; exact List.mem_singleton_self _⟩
  have addressable := vacant.addressable
  rw [frame] at addressable
  obtain ⟨memory, last, ran, mapped⟩ :=
    returns_mapWindow lawful aligned pages.symm vacant.room addressable vacant.stocked
    (vacant.unmapped cr3 space)
  have called : m.mapRange window.space window.first actual = ({ m with memory := memory }, .done window.first) := by
    simp only [mapRange, space, ran]
  have settled := settled_mapRange lawful m window.space window.first actual
  rw [served, called]
  rw [called] at settled
  refine ⟨rfl, aligned, vacant.room, ?_, cr3, space, ?_⟩
  · intro other also
    rw [space] at also
    cases also
    exact ((settled.grows housed.ready).2 cr3 used).1
  · rw [frame]
    exact mapped

theorem vacant_spec (vacant : m.vacant act = true) (asked : m.request act = some window) : window.Vacant m.memory := by
  rw [Machine.vacant, asked, Option.all_some] at vacant
  exact Window.vacant_iff.mp vacant

/-! ## Every run -/

variable {args : BootArgs paging} {booted : Machine paging} {history : List (Machine paging × Act)}

theorem orderly_of_machineRun (started : boot platform args = some booted)
    (run : Base.Run (step platform) booted history m) : m.kernel.Orderly := by
  obtain ⟨_, _, kernelRun⟩ := kernelRun_of_run started run
  exact Kernel.orderly_of_run kernelRun

/-- As long as every window is vacant when it is asked for, every window asked for stands. -/
theorem stands_of_run (lawful : paging.Lawful) (started : boot platform args = some booted)
    (run : Base.Run (step platform) booted history m)
    (vacant : Base.Run.Guarded (fun m act => m.vacant act = true) history) :
    m.Housed ∧ ∀ entry ∈ history, ∀ window, entry.1.request entry.2 = some window → window.Stands m.memory := by
  refine run.induct (fun history m => Base.Run.Guarded (fun m act => m.vacant act = true) history → m.Housed ∧
    ∀ entry ∈ history, ∀ window, entry.1.request entry.2 = some window → window.Stands m.memory) ?_ ?_ vacant
  · exact fun _ => ⟨housed_of_boot lawful started, by simp⟩
  · intro past m act after earlier ih taken guarded
    rw [Base.Run.guarded_append] at guarded
    obtain ⟨housed, stands⟩ := ih guarded.1
    obtain ⟨grows, stillHoused⟩ := housed.step lawful (orderly_of_machineRun started earlier) taken
    refine ⟨stillHoused, ?_⟩
    intro entry member window asked
    rcases List.mem_append.mp member with old | new
    · exact (stands entry old window asked).grows housed.ready grows
    · rw [List.mem_singleton] at new
      subst new
      obtain ⟨regs, env, rfl, _, served⟩ := stands_of_vacant lawful housed asked (vacant_spec guarded.2 asked)
      rcases handled_of_step taken with ⟨_, _, same, _, rfl⟩ | ⟨other, _⟩
      · cases same
        exact (served platform).2
      · exact absurd rfl (other regs env)

/-- In every run in which each window is vacant when it is asked for, each call that passes the check
returns its window, apart from those returned before in its address space. -/
theorem windows_apart (lawful : paging.Lawful) (started : boot platform args = some booted)
    (run : Base.Run (step platform) booted history m)
    (vacant : Base.Run.Guarded (fun m act => m.vacant act = true) history) :
    ∀ past before act later, history = past ++ (before, act) :: later → Answered platform past before act := by
  rintro past before act later rfl regs env window rfl asked
  have earlier := run.before_entry
  have guarded : Base.Run.Guarded (fun m act => m.vacant act = true) past :=
    fun entry member => vacant entry (List.mem_append_left _ member)
  have now := vacant_spec (vacant (before, .syscall regs env) (by simp)) asked
  obtain ⟨housed, stands⟩ := stands_of_run lawful started earlier guarded
  obtain ⟨_, _, same, aligned, served⟩ := stands_of_vacant lawful housed asked now
  cases same
  refine ⟨window.first, (served platform).1, .inr ⟨rfl, (served platform).2.mapped, ?_⟩⟩
  intro entry member old askedBefore sameSpace
  exact .inr ((stands entry member old askedBefore).disjoint aligned now sameSpace)

/-- `init` maps two ranges of the DMA pool through two handles. -/
theorem windows_apart_two : ∃ booted history m, boot (samplePlatform none) sampleArgs = some booted ∧
    Base.Run (step (samplePlatform none)) booted history m ∧
    history.map Prod.snd = sampleStart ++ [sampleCall 14 8192 0 0, sampleCall 14 4096 0 0, sampleCall 11 0 u64Max 0,
      sampleCall 11 3 u64Max 0] ∧
    ∀ past before act later, history = past ++ (before, act) :: later →
      Answered (samplePlatform none) past before act := by
  obtain ⟨booted, history, m, started, run, calls, guarded, _⟩ := sample_guarded none vacant
    [sampleCall 14 8192 0 0, sampleCall 14 4096 0 0, sampleCall 11 0 u64Max 0, sampleCall 11 3 u64Max 0]
    (fun m => (m.request (sampleCall 11 3 u64Max 0)).isSome && m.kernel.cpu.isRunning) (by decide +kernel)
  exact ⟨booted, history, m, started, run, calls, windows_apart Paging.flat_lawful started run guarded⟩

/-- `init` maps the same handle twice: the check passes, and the kernel panics. -/
theorem mapping_twice_panics : ∃ booted history m, boot (samplePlatform none) sampleArgs = some booted ∧
    Base.Run (step (samplePlatform none)) booted history m ∧
    history.map Prod.snd = sampleStart ++ [sampleCall 14 8192 0 0, sampleCall 11 0 u64Max 0] ∧
    (m.request (sampleCall 11 0 u64Max 0)).isSome = true ∧
    (m.syscallHandler (samplePlatform none) ⟨0, u64Max, 0, 0, 0, 0, 11⟩ sampleEnv).2 = .panicked ∧
    ¬ Answered (samplePlatform none) history m (sampleCall 11 0 u64Max 0) := by
  obtain ⟨booted, history, m, started, run, calls, checked⟩ := sample_run none
    [sampleCall 14 8192 0 0, sampleCall 11 0 u64Max 0]
    (fun m => (m.request (sampleCall 11 0 u64Max 0)).isSome &&
      decide ((m.syscallHandler (samplePlatform none) ⟨0, u64Max, 0, 0, 0, 0, 11⟩ sampleEnv).2 = .panicked))
    (by decide +kernel)
  rw [Bool.and_eq_true] at checked
  have panicked := of_decide_eq_true checked.2
  refine ⟨booted, history, m, started, run, calls, checked.1, panicked, ?_⟩
  intro answered
  obtain ⟨window, asked⟩ := Option.isSome_iff_exists.mp checked.1
  obtain ⟨value, returned, _⟩ := answered _ _ window rfl asked
  rw [panicked] at returned
  cases returned

end Machine

end ElseOS
