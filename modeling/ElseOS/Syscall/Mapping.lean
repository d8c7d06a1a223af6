import ElseOS.Machine
import ElseOS.Memory.Supply
import ElseOS.Task.Moves

/-! What `SYS_MAP_PHYS` maps.

The check compares byte ranges, the loop maps whole frames. A call keeps to the
capability exactly when the frames of the request do. -/

set_option autoImplicit false

namespace ElseOS

open Base (Action Region)
open Base.Action (expect)
open Memory (pageAt pageAt_toNat pageAt_zero pageAt_nextPage pagesInclusive_room)

namespace Machine

variable {paging : Paging} {mem after : Memory paging} {cr3 page phys : UInt64}

/-! ## The loop -/

/-- A translation that one pass of the loop can have made: the number of the frame counts
from the frame of the first address. -/
def Made (phys : UInt64) (i : Nat) (entry : Option (UInt64 × PageFlags)) : Prop :=
  ∃ frame, entry = some (frame, mmioFlags) ∧ frame.toNat = phys.toNat / 4096 * 4096 + i * 4096

theorem mapPage_spec {result : Option UInt64} (ran : mapPage cr3 page phys mem = (after, result)) :
    (result = some (phys + PAGE_SIZE) ∧ (phys + PAGE_SIZE).toNat = phys.toNat + 4096 ∧ mem.lookup cr3 page = none ∧
      ∃ entry, Made phys 0 entry ∧ after.lookup cr3 = Function.update (mem.lookup cr3) page entry) ∨
    (result = none ∧ after.lookup cr3 = mem.lookup cr3) := by
  unfold mapPage at ran
  cases valid : PhysAddr.new phys with
  | none =>
    rw [valid] at ran
    cases ran
    exact .inr ⟨rfl, rfl⟩
  | some addr =>
    obtain ⟨rfl, small⟩ := PhysAddr.new_eq valid
    rw [valid, Action.expect_some_bind] at ran
    rcases called : Memory.expectMapTo cr3 page (containingAddress addr) mmioFlags mem with ⟨middle, outcome⟩
    rcases Memory.expectMapTo_spec called with ⟨rfl, free, updated⟩ | ⟨rfl, same⟩
    · rw [Action.bind_some called] at ran
      cases ran
      refine .inl ⟨rfl, ?_, free, _, ⟨containingAddress addr, rfl, ?_⟩, updated⟩
      · rw [UInt64.toNat_add, PAGE_SIZE_toNat]
        omega
      · rw [containingAddress_toNat]
        omega
    · rw [Action.bind_none called] at ran
      cases ran
      exact .inr ⟨rfl, same⟩

theorem Made.shift {i : Nat} {entry : Option (UInt64 × PageFlags)}
    (next : (phys + PAGE_SIZE).toNat = phys.toNat + 4096) (made : Made (phys + PAGE_SIZE) i entry) :
    Made phys (i + 1) entry := by
  obtain ⟨frame, same, address⟩ := made
  refine ⟨frame, same, ?_⟩
  rw [address, next]
  omega

theorem mapLoop_makes {count : Nat} {result : Option UInt64}
    (ran : forPages (mapPage cr3) count page phys mem = (after, result)) (other : UInt64) :
    after.lookup cr3 other = mem.lookup cr3 other ∨
    (mem.lookup cr3 other = none ∧ ∃ i < count, Made phys i (after.lookup cr3 other)) := by
  induction count generalizing page phys mem with
  | zero =>
    cases ran
    exact .inl rfl
  | succ count ih =>
    rw [forPages] at ran
    cases advanced : nextPage page with
    | none =>
      rw [advanced, Action.expect_none_bind] at ran
      cases ran
      exact .inl rfl
    | some next =>
      rw [advanced, Action.expect_some_bind] at ran
      rcases called : mapPage cr3 page phys mem with ⟨middle, outcome⟩
      rcases mapPage_spec called with ⟨rfl, address, free, entry, made, updated⟩ | ⟨rfl, same⟩
      · rw [Action.bind_some called] at ran
        rcases ih ran with kept | ⟨unmapped, i, inside, later⟩
        · rw [updated] at kept
          by_cases here : other = page
          · subst here
            rw [Function.update_self] at kept
            rw [kept]
            exact .inr ⟨free, 0, Nat.succ_pos count, made⟩
          · rw [Function.update_of_ne here] at kept
            exact .inl kept
        · have different : other ≠ page := by
            rintro rfl
            obtain ⟨frame, rfl, _⟩ := made
            rw [updated, Function.update_self] at unmapped
            cases unmapped
          rw [updated, Function.update_of_ne different] at unmapped
          exact .inr ⟨unmapped, i + 1, Nat.succ_lt_succ inside, later.shift address⟩
      · rw [Action.bind_none called] at ran
        cases ran
        exact .inl (congrFun same other)

/-- A loop that finishes has mapped frame after frame to page after page. -/
theorem mapLoop_finishes {count : Nat} {last : UInt64} (room : page.toNat + 4096 * count ≤ 2 ^ 64)
    (ran : forPages (mapPage cr3) count page phys mem = (after, some last)) {i : Nat} (inside : i < count) :
    mem.lookup cr3 (pageAt page i) = none ∧ Made phys i (after.lookup cr3 (pageAt page i)) := by
  induction count generalizing page phys mem i with
  | zero => exact absurd inside (Nat.not_lt_zero i)
  | succ count ih =>
    rw [forPages] at ran
    cases advanced : nextPage page with
    | none =>
      rw [advanced, Action.expect_none_bind] at ran
      cases ran
    | some next =>
      rw [advanced, Action.expect_some_bind] at ran
      obtain ⟨middle, phys', called, ran⟩ := Action.bind_eq_some ran
      rcases mapPage_spec called with ⟨same, address, free, entry, made, updated⟩ | ⟨none, _⟩
      · obtain rfl := Option.some.inj same
        cases i with
        | zero =>
          rw [pageAt_zero]
          refine ⟨free, ?_⟩
          rcases mapLoop_makes ran page with kept | ⟨unmapped, _⟩
          · rw [kept, updated, Function.update_self]
            exact made
          · obtain ⟨frame, rfl, _⟩ := made
            rw [updated, Function.update_self] at unmapped
            cases unmapped
        | succ i =>
          have twice : 4096 * 2 ≤ 4096 * (count + 1) := Nat.mul_le_mul_left 4096 (by omega)
          obtain ⟨place, behind⟩ := pageAt_nextPage (le_trans (Nat.add_le_add_left twice _) room) advanced i
          obtain ⟨unmapped, later⟩ := ih (by omega) ran (Nat.lt_of_succ_lt_succ inside)
          have different : pageAt next i ≠ page := by
            intro equal
            have value := congrArg UInt64.toNat equal
            rw [pageAt_toNat (by omega)] at value
            omega
          rw [updated, Function.update_of_ne different] at unmapped
          rw [place]
          exact ⟨unmapped, later.shift address⟩
      · cases none

/-! ## The call -/

def windowPages (virtAddr actualLen : UInt64) : Nat :=
  pagesInclusive (containingAddress virtAddr) (containingAddress (virtAddr + actualLen - 1))

def Fits (start len virtAddr : UInt64) (actual : UInt64 × UInt64) : Prop :=
  let pages := windowPages virtAddr actual.2
  pages = 0 ∨
  (Region.Within ⟨actual.1.toNat, actual.2.toNat⟩ ⟨start.toNat, len.toNat⟩ ∧
    Region.Within ⟨actual.1.toNat / 4096 * 4096, pages * 4096⟩ ⟨start.toNat, len.toNat⟩)

/-- A page of the address space gives user code access to a frame that it did not give before. -/
def Opens (before after : Memory paging) (cr3 page frame : UInt64) : Prop :=
  ∃ flags, flags.userAccessible = true ∧ after.lookup cr3 page = some (frame, flags) ∧
    before.lookup cr3 page ≠ some (frame, flags)

def HoldsMemory (m : Machine paging) (handle start len : UInt64) : Prop :=
  ∃ current cs, m.kernel.lookup handle = some (current, cs, some (.memoryMap start len))

def callerCr3 (m : Machine paging) : Option UInt64 := m.kernel.scheduler.current.bind Thread.cr3

/-- Every frame the call opens to the caller lies in the capability's range, and so does the
request it opens them for. -/
def Confined (m after : Machine paging) (handle physAddr length : UInt64) : Prop :=
  ∀ cr3 page frame, m.callerCr3 = some cr3 → Opens m.memory after.memory cr3 page frame →
    ∃ start len, m.HoldsMemory handle start len ∧ Region.Within ⟨frame.toNat, 4096⟩ ⟨start.toNat, len.toNat⟩ ∧
      let actual := actualRange start len physAddr length
      Region.Within ⟨actual.1.toNat, actual.2.toNat⟩ ⟨start.toNat, len.toNat⟩

def Fitting (m : Machine paging) (handle physAddr length : UInt64) : Prop :=
  ∀ start len, m.HoldsMemory handle start len → mapAllowed start len (actualRange start len physAddr length) = true →
    Fits start len (windowAddr handle) (actualRange start len physAddr length)

theorem HoldsMemory.unique {m : Machine paging} {handle start len otherStart otherLen : UInt64}
    (first : m.HoldsMemory handle start len) (second : m.HoldsMemory handle otherStart otherLen) :
    otherStart = start ∧ otherLen = len := by
  obtain ⟨current, cs, found⟩ := first
  obtain ⟨other, space, again⟩ := second
  rw [found] at again
  cases again
  exact ⟨rfl, rfl⟩

theorem mapRange_cases (m : Machine paging) (callerCr3 : Option UInt64) (virtAddr : UInt64) (actual : UInt64 × UInt64) :
    ((m.mapRange callerCr3 virtAddr actual).1.memory = m.memory ∧
      (m.mapRange callerCr3 virtAddr actual).2 = .panicked) ∨
    ∃ cr3 result, callerCr3 = some cr3 ∧ mapWindow cr3 virtAddr actual.1 actual.2 m.memory =
        ((m.mapRange callerCr3 virtAddr actual).1.memory, result) ∧
      (result = none → (m.mapRange callerCr3 virtAddr actual).2 = .panicked) := by
  cases callerCr3 with
  | none => exact .inl ⟨rfl, rfl⟩
  | some cr3 =>
    refine .inr ⟨cr3, ?_⟩
    unfold mapRange
    dsimp only
    rcases mapWindow cr3 virtAddr actual.1 actual.2 m.memory with ⟨memory, _ | last⟩
    · exact ⟨none, rfl, rfl, fun _ => rfl⟩
    · exact ⟨some last, rfl, rfl, fun stopped => by cases stopped⟩

theorem sysMapPhys_cases (m : Machine paging) (handle physAddr length : UInt64) :
    (∃ start len, m.HoldsMemory handle start len ∧
      mapAllowed start len (actualRange start len physAddr length) = true ∧
      m.sysMapPhys handle physAddr length =
        m.mapRange m.callerCr3 (windowAddr handle) (actualRange start len physAddr length)) ∨
    ((m.sysMapPhys handle physAddr length).1.memory = m.memory ∧ ∀ start len, m.HoldsMemory handle start len →
      mapAllowed start len (actualRange start len physAddr length) = false) := by
  rcases found : m.kernel.lookup handle with _ | ⟨current, cs, held⟩
  · have stopped : m.sysMapPhys handle physAddr length = m.panic := by rw [sysMapPhys, found]
    rw [stopped]
    refine .inr ⟨rfl, ?_⟩
    rintro start len ⟨thread, space, again⟩
    rw [found] at again
    cases again
  · by_cases isMemory : ∃ start len, held = some (.memoryMap start len)
    · obtain ⟨start, len, rfl⟩ := isMemory
      have holds : m.HoldsMemory handle start len := ⟨current, cs, found⟩
      have caller : m.callerCr3 = current.cr3 := by rw [callerCr3, (Kernel.lookup_eq found).1, Option.bind_some]
      by_cases allowed : mapAllowed start len (actualRange start len physAddr length) = true
      · refine .inl ⟨start, len, holds, allowed, ?_⟩
        rw [sysMapPhys, found, caller]
        exact if_pos allowed
      · have done : m.sysMapPhys handle physAddr length = (m, .done 0) := by
          rw [sysMapPhys, found]
          exact if_neg allowed
        rw [done]
        refine .inr ⟨rfl, ?_⟩
        intro otherStart otherLen other
        obtain ⟨rfl, rfl⟩ := holds.unique other
        exact Bool.eq_false_of_not_eq_true allowed
    · have done : m.sysMapPhys handle physAddr length = (m, .done 0) := by
        rw [sysMapPhys, found]
        match held with
        | some (.memoryMap start len) => exact absurd ⟨start, len, rfl⟩ isMemory
        | some (.endpoint _ _) | some (.process _ _) | some (.interrupt _) | some (.portIo _ _ _) | none => rfl
      rw [done]
      refine .inr ⟨rfl, ?_⟩
      rintro start len ⟨thread, space, again⟩
      rw [found] at again
      cases again
      exact absurd ⟨start, len, rfl⟩ isMemory

/-- What lies in whole frames of a request that fits lies in the capability's range. -/
theorem frame_within {start len : UInt64} {first pages i : Nat} (inside : i < pages)
    (within : Region.Within ⟨first, pages * 4096⟩ ⟨start.toNat, len.toNat⟩) :
    Region.Within ⟨first + i * 4096, 4096⟩ ⟨start.toNat, len.toNat⟩ := by
  unfold Region.Within Region.stop at *
  dsimp only at *
  omega

theorem mapRange_opens {m : Machine paging} {callerCr3 : Option UInt64} {virtAddr cr3 page frame : UInt64}
    {actual : UInt64 × UInt64} (isCaller : callerCr3 = some cr3)
    (opens : Opens m.memory (m.mapRange callerCr3 virtAddr actual).1.memory cr3 page frame) :
    ∃ i < windowPages virtAddr actual.2, frame.toNat = actual.1.toNat / 4096 * 4096 + i * 4096 := by
  obtain ⟨flags, _, opened, new⟩ := opens
  rcases m.mapRange_cases callerCr3 virtAddr actual with ⟨same, _⟩ | ⟨space, result, caller, ran, _⟩
  · rw [same] at opened
    exact absurd opened new
  · obtain rfl := Option.some.inj (isCaller.symm.trans caller)
    rcases Memory.forAddresses_cases ran with ⟨same, _⟩ | loop
    · rw [same] at opened
      exact absurd opened new
    · rcases mapLoop_makes loop page with kept | ⟨_, i, inside, other, entry, address⟩
      · rw [kept] at opened
        exact absurd opened new
      · rw [entry] at opened
        cases opened
        exact ⟨i, inside, address⟩

theorem mapRange_finishes {m : Machine paging} {callerCr3 : Option UInt64} {virtAddr : UInt64}
    {actual : UInt64 × UInt64} (returned : (m.mapRange callerCr3 virtAddr actual).2 ≠ .panicked) :
    ∃ cr3, callerCr3 = some cr3 ∧ ∀ i < windowPages virtAddr actual.2,
      let page := pageAt (containingAddress virtAddr) i
      m.memory.lookup cr3 page = none ∧
      Made actual.1 i ((m.mapRange callerCr3 virtAddr actual).1.memory.lookup cr3 page) := by
  rcases m.mapRange_cases callerCr3 virtAddr actual with ⟨_, stopped⟩ | ⟨cr3, result, caller, ran, finishes⟩
  · exact absurd stopped returned
  · refine ⟨cr3, caller, ?_⟩
    intro i inside
    cases result with
    | none => exact absurd (finishes rfl) returned
    | some last =>
      rcases Memory.forAddresses_cases ran with ⟨_, none⟩ | loop
      · cases none
      · exact mapLoop_finishes (pagesInclusive_room _ _) loop inside

theorem mapPhys_confined {m : Machine paging} {handle physAddr length : UInt64}
    (fitting : m.Fitting handle physAddr length) :
    Confined m (m.sysMapPhys handle physAddr length).1 handle physAddr length := by
  intro cr3 page frame isCaller opens
  rcases m.sysMapPhys_cases handle physAddr length with ⟨start, len, holds, allowed, same⟩ | ⟨same, _⟩
  · rw [same] at opens
    obtain ⟨i, inside, address⟩ := mapRange_opens isCaller opens
    rcases fitting start len holds allowed with none | ⟨request, frames⟩
    · rw [none] at inside
      exact absurd inside (Nat.not_lt_zero i)
    · refine ⟨start, len, holds, ?_, request⟩
      rw [address]
      exact frame_within inside frames
  · obtain ⟨flags, _, opened, new⟩ := opens
    rw [same] at opened
    exact absurd opened new

theorem mapPhys_fitting {m : Machine paging} {handle physAddr length : UInt64}
    (returned : (m.sysMapPhys handle physAddr length).2 ≠ .panicked)
    (confined : Confined m (m.sysMapPhys handle physAddr length).1 handle physAddr length) :
    m.Fitting handle physAddr length := by
  intro start len holds allowed
  rcases m.sysMapPhys_cases handle physAddr length with ⟨start', len', holds', _, same⟩ | ⟨_, refused⟩
  · obtain ⟨rfl, rfl⟩ := holds.unique holds'
    rw [same] at returned confined
    obtain ⟨cr3, caller, opened⟩ := mapRange_finishes returned
    generalize range : actualRange start' len' physAddr length = actual at *
    rcases Nat.eq_zero_or_pos (windowPages (windowAddr handle) actual.2) with none | some
    · exact .inl none
    · -- the first and the last frame of the request bound the others
      have within : ∀ i < windowPages (windowAddr handle) actual.2,
          Region.Within ⟨actual.1.toNat / 4096 * 4096 + i * 4096, 4096⟩ ⟨start'.toNat, len'.toNat⟩ ∧
          Region.Within ⟨actual.1.toNat, actual.2.toNat⟩ ⟨start'.toNat, len'.toNat⟩ := by
        intro i inside
        obtain ⟨free, frame, entry, address⟩ := opened i inside
        have opens : Opens m.memory _ cr3 _ frame := ⟨mmioFlags, rfl, entry, by simp [free]⟩
        obtain ⟨start, len, also, framed, request⟩ := confined cr3 _ frame caller opens
        obtain ⟨rfl, rfl⟩ := holds.unique also
        rw [address] at framed
        simp only [range] at request
        exact ⟨framed, request⟩
      have first := within 0 some
      have final := within _ (Nat.sub_one_lt_of_lt some)
      refine .inr ⟨first.2, ?_⟩
      have low := first.1.1
      have high := final.1.2
      unfold Region.Within Region.stop at *
      dsimp only at *
      omega
  · rw [refused start len holds] at allowed
    cases allowed

/-- A call keeps to the capability when the frames of its request do, and a call that returns
keeps to it only then. -/
theorem mapPhys_confined_iff (platform : Platform) (m : Machine paging) (handle physAddr length r10 r8 r9 : UInt64)
    (env : CallEnv) :
    let call := m.syscallHandler platform ⟨handle, physAddr, length, r10, r8, r9, 11⟩ env
    (m.Fitting handle physAddr length → Confined m call.1 handle physAddr length) ∧
    (call.2 ≠ .panicked → (Confined m call.1 handle physAddr length ↔ m.Fitting handle physAddr length)) :=
  ⟨mapPhys_confined, fun returned => ⟨mapPhys_fitting returned, mapPhys_confined⟩⟩

/-- `init` asks for 100 bytes of the DMA pool and maps them: the whole frame is opened. -/
theorem mapPhys_oversteps : ∃ booted history m, boot (samplePlatform none) sampleArgs = some booted ∧
    Base.Run (step (samplePlatform none)) booted history m ∧
    history.map Prod.snd = sampleStart ++ [sampleCall 14 100 0 0] ∧
    (m.syscallHandler (samplePlatform none) ⟨0, u64Max, 0, 0, 0, 0, 11⟩ sampleEnv).2 = .done 0x80000000 ∧
    ¬ Confined m (m.syscallHandler (samplePlatform none) ⟨0, u64Max, 0, 0, 0, 0, 11⟩ sampleEnv).1 0 u64Max 0 := by
  obtain ⟨booted, history, m, started, run, calls, checked⟩ := sample_run none [sampleCall 14 100 0 0]
    (fun m =>
      let call := m.syscallHandler (samplePlatform none) ⟨0, u64Max, 0, 0, 0, 0, 11⟩ sampleEnv
      decide ((m.kernel.lookup 0).map (fun found => found.2.2) = some (some (.memoryMap 0x100000 100)) ∧
        m.callerCr3 = some 0x129000 ∧ call.2 = .done 0x80000000 ∧
        m.memory.lookup 0x129000 0x80000000 = none ∧
        call.1.memory.lookup 0x129000 0x80000000 = some (0x100000, mmioFlags))) (by decide +kernel)
  obtain ⟨held, caller, returned, free, mapped⟩ := of_decide_eq_true checked
  refine ⟨booted, history, m, started, run, calls, returned, ?_⟩
  intro confined
  obtain ⟨start, len, ⟨current, cs, found⟩, within, _⟩ := confined 0x129000 0x80000000 0x100000 caller
    ⟨mmioFlags, rfl, mapped, by rw [free]; exact nofun⟩
  rw [found] at held
  cases held
  revert within
  decide

end Machine

end ElseOS
