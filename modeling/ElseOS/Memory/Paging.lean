import ElseOS.Base.Action
import ElseOS.Memory.FrameAllocator

/-! Page tables and the loops that fill them.

`OffsetPageTable` belongs to the `x86_64` crate and is a parameter: `Paging` names the
tables, what they translate and what its calls do to them, with the properties of the
crate that the results rest on. What is assumed of its addresses and page ranges stands in
`Memory/Address`. -/

set_option autoImplicit false

namespace ElseOS

open Base (Action)
open Base.Action (expect)

structure PageFlags where
  writable : Bool
  userAccessible : Bool
  noCache : Bool
  noExecute : Bool
  deriving DecidableEq, Repr

inductive MapToError where
  | frameAllocationFailed | parentEntryHugePage | pageAlreadyMapped
  deriving DecidableEq, Repr

/-- How `map_to` ends; the frame allocator it is given can panic inside it. -/
inductive MapResult where
  | ok
  | error (reason : MapToError)
  | panicked
  deriving DecidableEq, Repr

def MapResult.value : MapResult → Option (Except MapToError Unit)
  | .ok => some (.ok ())
  | .error reason => some (.error reason)
  | .panicked => none

theorem BitmapAllocator.allocateFrame_none {allocator after : BitmapAllocator}
    (returned : allocator.allocateFrame = some (after, none)) : after = allocator := by
  have searched : ∀ count i, allocator.allocateFrom count i = some (after, none) → after = allocator := by
    intro count
    induction count with
    | zero =>
      intro i found
      cases found
      rfl
    | succ count ih =>
      intro i found
      obtain ⟨used, _, continued⟩ := Option.bind_eq_some_iff.mp found
      cases used with
      | true => exact ih _ continued
      | false =>
        obtain ⟨marked, _, continued⟩ := Option.bind_eq_some_iff.mp continued
        obtain ⟨physAddr, _, same⟩ := Option.map_eq_some_iff.mp continued
        cases same
  unfold allocateFrame at returned
  split at returned
  next =>
    cases returned
    rfl
  next => exact searched _ _ returned

inductive BitmapAllocator.Takes : BitmapAllocator → List UInt64 → BitmapAllocator → Prop where
  | nil (allocator : BitmapAllocator) : Takes allocator [] allocator
  | cons {first second third : BitmapAllocator} {frame : UInt64} {frames : List UInt64} :
      first.allocateFrame = some (second, some frame) → Takes second frames third → Takes first (frame :: frames) third

theorem BitmapAllocator.Takes.trans {first second third : BitmapAllocator} {frames more : List UInt64}
    (left : first.Takes frames second) (right : second.Takes more third) : first.Takes (frames ++ more) third := by
  induction left with
  | nil => exact right
  | cons taken _ ih => exact .cons taken (ih right)

/-- The page tables in memory. An address space is named by the frame of its level 4 table. -/
structure Paging where
  Tables : Type
  /-- The frame and the flags of a present page. -/
  lookup : Tables → (cr3 page : UInt64) → Option (UInt64 × PageFlags)
  /-- `OffsetPageTable::map_to`; the flag PRESENT is always among those given. -/
  mapTo : Tables → BitmapAllocator → (cr3 page frame : UInt64) → PageFlags → Tables × BitmapAllocator × MapResult
  /-- `OffsetPageTable::update_flags`; an error is only logged. -/
  updateFlags : Tables → (cr3 page : UInt64) → PageFlags → Tables
  /-- A level 4 table with an empty lower half and the current table's upper half. -/
  newTable : Tables → (cr3 current : UInt64) → Tables
  /-- Tables on the way down are allocated frame by frame. -/
  takes : ∀ tables allocator cr3 page frame flags,
    ∃ frames, BitmapAllocator.Takes allocator frames (mapTo tables allocator cr3 page frame flags).2.1
  /-- A page that is mapped was not mapped before. -/
  mapped : ∀ tables allocator cr3 page frame flags, (mapTo tables allocator cr3 page frame flags).2.2 = .ok →
    lookup tables cr3 page = none ∧
    lookup (mapTo tables allocator cr3 page frame flags).1 cr3 page = some (frame, flags)
  otherPages : ∀ tables allocator cr3 page frame flags other, other ≠ page →
    lookup (mapTo tables allocator cr3 page frame flags).1 cr3 other = lookup tables cr3 other
  refused : ∀ tables allocator cr3 page frame flags, (mapTo tables allocator cr3 page frame flags).2.2 ≠ .ok →
    lookup (mapTo tables allocator cr3 page frame flags).1 cr3 page = lookup tables cr3 page

namespace Paging

abbrev FlatTables := List ((UInt64 × UInt64) × UInt64 × PageFlags)

def flatMapTo (tables : FlatTables) (allocator : BitmapAllocator) (cr3 page frame : UInt64) (flags : PageFlags) :
    FlatTables × BitmapAllocator × MapResult :=
  match tables.lookup (cr3, page) with
  | none => (((cr3, page), frame, flags) :: tables, allocator, .ok)
  | some _ => (tables, allocator, .error .pageAlreadyMapped)

/-- Tables without levels: they need no frames and have no huge pages. -/
def flat : Paging where
  Tables := FlatTables
  lookup tables cr3 page := tables.lookup (cr3, page)
  mapTo := flatMapTo
  updateFlags tables cr3 page flags :=
    tables.map fun entry => if entry.1 = (cr3, page) then (entry.1, entry.2.1, flags) else entry
  newTable tables cr3 current :=
    (tables.filter fun entry => entry.1.1 = current && 2 ^ 47 ≤ entry.1.2.toNat).map
      (fun entry => ((cr3, entry.1.2), entry.2)) ++ tables
  takes tables allocator cr3 page frame flags := by
    refine ⟨[], ?_⟩
    unfold flatMapTo
    split <;> exact .nil _
  mapped tables allocator cr3 page frame flags ok := by
    unfold flatMapTo at ok ⊢
    split at ok
    next free => simp [free]
    next => cases ok
  otherPages tables allocator cr3 page frame flags other different := by
    unfold flatMapTo
    split
    next =>
      have apart : ((cr3, other) == (cr3, page)) = false := by simpa using different
      rw [List.lookup_cons, apart]
    next => rfl
  refused tables allocator cr3 page frame flags failed := by
    unfold flatMapTo at failed ⊢
    split at failed
    next => exact absurd rfl failed
    next => simp [*]

end Paging

structure Memory (paging : Paging) where
  allocator : BitmapAllocator
  tables : paging.Tables
  ram : Ram

namespace Memory

variable {paging : Paging}

def allocateFrame : Action (Memory paging) (Option UInt64) := fun mem =>
  match mem.allocator.allocateFrame with
  | some (allocator, frame) => ({ mem with allocator := allocator }, some frame)
  | none => (mem, none)

def expectFrame : Action (Memory paging) UInt64 := do
  let frame ← allocateFrame
  expect frame

def mapTo (cr3 page frame : UInt64) (flags : PageFlags) : Action (Memory paging) (Except MapToError Unit) := fun mem =>
  match paging.mapTo mem.tables mem.allocator cr3 page frame flags with
  | (tables, allocator, result) => ({ mem with tables := tables, allocator := allocator }, result.value)

def expectMapTo (cr3 page frame : UInt64) (flags : PageFlags) : Action (Memory paging) Unit := do
  let result ← mapTo cr3 page frame flags
  expect result.toOption

def newTable (cr3 currentCr3 : UInt64) : Action (Memory paging) Unit :=
  Action.modify fun mem => { mem with tables := paging.newTable mem.tables cr3 currentCr3 }

def zeroFrame (frame : UInt64) : Action (Memory paging) Unit :=
  Action.modify fun mem => { mem with ram := mem.ram.fill frame PAGE_SIZE 0 }

end Memory

/-! ## Ranges of pages -/

def forPages {State Carried : Type} (body : UInt64 → Carried → Action State Carried) :
    (count : Nat) → (page : UInt64) → Carried → Action State Carried
  | 0, _, carried => pure carried
  | count + 1, page, carried => do
    let next ← expect (nextPage page)
    let carried ← body page carried
    forPages body count next carried

theorem keeps_forPages {State Carried : Type} {relation : State → State → Prop} [Std.Refl relation]
    [IsTrans State relation] {body : UInt64 → Carried → Action State Carried}
    (once : ∀ page carried, Action.Keeps relation (body page carried))
    (count : Nat) (page : UInt64) (carried : Carried) : Action.Keeps relation (forPages body count page carried) := by
  induction count generalizing page carried with
  | zero => exact Action.keeps_pure carried
  | succ count ih =>
    refine (Action.keeps_expect (nextPage page)).bind ?_
    intro next
    exact (once page carried).bind fun carried => ih next carried

namespace Memory

variable {paging : Paging}

def forAddresses {Carried : Type} (first last : UInt64) (body : UInt64 → Carried → Action (Memory paging) Carried)
    (carried : Carried) : Action (Memory paging) Carried := do
  let first ← expect (VirtAddr.new first)
  let last ← expect (VirtAddr.new last)
  let startPage := containingAddress first
  forPages body (pagesInclusive startPage (containingAddress last)) startPage carried

theorem keeps_forAddresses {Carried : Type} {relation : Memory paging → Memory paging → Prop} [Std.Refl relation]
    [IsTrans (Memory paging) relation] {body : UInt64 → Carried → Action (Memory paging) Carried}
    (once : ∀ page carried, Action.Keeps relation (body page carried)) (first last : UInt64) (carried : Carried) :
    Action.Keeps relation (forAddresses first last body carried) := by
  refine (Action.keeps_expect _).bind fun first => ?_
  exact (Action.keeps_expect _).bind fun last => keeps_forPages once _ _ _

theorem forAddresses_cases {Carried : Type} {first last : UInt64}
    {body : UInt64 → Carried → Action (Memory paging) Carried} {carried : Carried} {mem after : Memory paging}
    {result : Option Carried} (ran : forAddresses first last body carried mem = (after, result)) :
    (after = mem ∧ result = none) ∨
    forPages body (pagesInclusive (containingAddress first) (containingAddress last)) (containingAddress first)
      carried mem = (after, result) := by
  unfold forAddresses at ran
  cases validFirst : VirtAddr.new first with
  | none =>
    rw [validFirst, Action.expect_none_bind] at ran
    cases ran
    exact .inl ⟨rfl, rfl⟩
  | some start =>
    rw [validFirst, Action.expect_some_bind] at ran
    cases validLast : VirtAddr.new last with
    | none =>
      rw [validLast, Action.expect_none_bind] at ran
      cases ran
      exact .inl ⟨rfl, rfl⟩
    | some stop =>
      rw [validLast, Action.expect_some_bind, VirtAddr.new_eq validFirst, VirtAddr.new_eq validLast] at ran
      exact .inr ran

/-! ## Loops over pages of the lower half -/

def pageAt (page : UInt64) (i : Nat) : UInt64 := page + UInt64.ofNat i * PAGE_SIZE

theorem pageAt_toNat {page : UInt64} {i : Nat} (room : page.toNat + 4096 * i < 2 ^ 64) :
    (pageAt page i).toNat = page.toNat + 4096 * i := by
  rw [pageAt, UInt64.toNat_add, UInt64.toNat_mul, UInt64.toNat_ofNat', PAGE_SIZE_toNat]
  omega

@[simp] theorem pageAt_zero (page : UInt64) : pageAt page 0 = page := by
  simp [pageAt]

theorem canonical_lower {addr : UInt64} (low : addr.toNat < 2 ^ 47) : VirtAddr.new addr = some addr := by
  rw [VirtAddr.new, if_pos]
  simp only [VirtAddr.canonical, Bool.or_eq_true, decide_eq_true_eq]
  exact .inl low

theorem nextPage_pageAt {page : UInt64} {i : Nat} (room : page.toNat + 4096 * (i + 1) < 2 ^ 47) :
    nextPage (pageAt page i) = some (pageAt page (i + 1)) := by
  have here : (pageAt page i).toNat = page.toNat + 4096 * i := pageAt_toNat (by omega)
  have there : (pageAt page (i + 1)).toNat = page.toNat + 4096 * (i + 1) := pageAt_toNat (by omega)
  have behind : pageAt page i + PAGE_SIZE = pageAt page (i + 1) := by
    apply UInt64.toNat_inj.mp
    rw [UInt64.toNat_add, here, there, PAGE_SIZE_toNat]
    omega
  have notLast : pageAt page i ≠ lastPage := by
    intro same
    rw [same] at here
    have value : lastPage.toNat = 0xFFFFFFFFFFFFF000 := rfl
    omega
  rw [nextPage, if_neg notLast, behind]
  exact canonical_lower (by omega)

theorem pageAt_nextPage {page next : UInt64} (room : page.toNat + 8192 ≤ 2 ^ 64)
    (advanced : nextPage page = some next) (i : Nat) :
    pageAt page (i + 1) = pageAt next i ∧ next.toNat = page.toNat + 4096 := by
  have notLast : page ≠ lastPage := by
    intro same
    have value : lastPage.toNat = 0xFFFFFFFFFFFFF000 := rfl
    rw [same] at room
    omega
  rw [nextPage, if_neg notLast] at advanced
  obtain rfl := VirtAddr.new_eq advanced
  constructor
  · rw [pageAt, pageAt, UInt64.ofNat_add]
    grind
  · rw [UInt64.toNat_add, PAGE_SIZE_toNat]
    omega

theorem pagesInclusive_room (first last : UInt64) : (containingAddress first).toNat +
    4096 * pagesInclusive (containingAddress first) (containingAddress last) ≤ 2 ^ 64 := by
  have firstBlock := containingAddress_toNat first
  have lastBlock := containingAddress_toNat last
  have firstSmall := first.toNat_lt
  have lastSmall := last.toNat_lt
  rw [pagesInclusive]
  split
  next ordered =>
    have order := UInt64.le_iff_toNat_le.mp ordered
    rw [UInt64.toNat_div, UInt64.toNat_sub_of_le _ _ ordered, PAGE_SIZE_toNat]
    omega
  next => omega

theorem returns_forPages {State Carried : Type} {body : UInt64 → Carried → Action State Carried}
    (Inv : Nat → Carried → State → Prop) {page : UInt64} {count : Nat} (room : page.toNat + 4096 * count < 2 ^ 47)
    (once : ∀ i carried state, i < count → Inv i carried state →
      Action.Returns (body (pageAt page i) carried) state (Inv (i + 1)))
    {carried : Carried} {state : State} (holds : Inv 0 carried state) :
    Action.Returns (forPages body count page carried) state (Inv count) := by
  -- from any pass on, with the passes that are left
  have from_pass : ∀ left i carried state, i + left = count → Inv i carried state →
      Action.Returns (forPages body left (pageAt page i) carried) state (Inv count) := by
    intro left
    induction left with
    | zero =>
      rintro i carried state rfl holds
      exact Action.returns_pure holds
    | succ left ih =>
      intro i carried state ends holds
      have next := nextPage_pageAt (show page.toNat + 4096 * (i + 1) < 2 ^ 47 by omega)
      rw [forPages, next, Action.expect_some_bind]
      apply (once i carried state (by omega) holds).bind
      intro carried after holds
      exact ih (i + 1) carried after (by omega) holds
  have whole := from_pass count 0 carried state (Nat.zero_add count) holds
  rw [pageAt_zero] at whole
  exact whole

/-- Both addresses are canonical if the pages between them end before the lower half does. -/
theorem canonical_of_room {first last : UInt64}
    (room : (containingAddress first).toNat +
      4096 * pagesInclusive (containingAddress first) (containingAddress last) < 2 ^ 47) :
    VirtAddr.new first = some first ∧ VirtAddr.new last = some last := by
  have firstBlock := containingAddress_toNat first
  have lastBlock := containingAddress_toNat last
  have low : first.toNat < 2 ^ 47 ∧ last.toNat < 2 ^ 47 := by
    unfold pagesInclusive at room
    split at room
    next ordered =>
      have order := UInt64.le_iff_toNat_le.mp ordered
      rw [UInt64.toNat_div, UInt64.toNat_sub_of_le _ _ ordered, PAGE_SIZE_toNat] at room
      omega
    next behind =>
      have order := UInt64.lt_iff_toNat_lt.mp (UInt64.not_le.mp behind)
      omega
  exact ⟨canonical_lower low.1, canonical_lower low.2⟩

theorem returns_forAddresses {Carried : Type} {first last : UInt64}
    {body : UInt64 → Carried → Action (Memory paging) Carried} (Inv : Nat → Carried → Memory paging → Prop)
    {count : Nat} (counted : pagesInclusive (containingAddress first) (containingAddress last) = count)
    (room : (containingAddress first).toNat + 4096 * count < 2 ^ 47)
    (once : ∀ i carried mem, i < count → Inv i carried mem →
      Action.Returns (body (pageAt (containingAddress first) i) carried) mem (Inv (i + 1)))
    {carried : Carried} {mem : Memory paging} (holds : Inv 0 carried mem) :
    Action.Returns (forAddresses first last body carried) mem (Inv count) := by
  subst counted
  obtain ⟨validFirst, validLast⟩ := canonical_of_room room
  unfold forAddresses
  rw [validFirst, Action.expect_some_bind, validLast, Action.expect_some_bind]
  exact returns_forPages Inv room once holds

/-- The iterator panics behind the last page of the lower half. -/
theorem stops_forPages {State Carried : Type} (body : UInt64 → Carried → Action State Carried) {count : Nat}
    {page : UInt64} (some : 0 < count) (ends : page.toNat + 4096 * count = 2 ^ 47) (carried : Carried) :
    Action.Stops (forPages body count page carried) := by
  induction count generalizing page carried with
  | zero => exact absurd some (Nat.lt_irrefl 0)
  | succ count ih =>
    have same := pageAt_zero page
    rcases Nat.eq_zero_or_pos count with rfl | more
    · have last : page = 0x7FFFFFFFF000 := by
        apply UInt64.toNat_inj.mp
        have value : (0x7FFFFFFFF000 : UInt64).toNat = 0x7FFFFFFFF000 := rfl
        omega
      subst last
      exact (Action.stops_expect (by decide)).first _
    · have next := nextPage_pageAt (show page.toNat + 4096 * (0 + 1) < 2 ^ 47 by omega)
      rw [same] at next
      rw [forPages, next, Action.expect_some_bind]
      apply Action.Stops.rest
      intro carried
      apply ih more
      rw [pageAt_toNat (by omega)]
      omega

/-! ## The kernel's own mappings -/

def HEAP_START : UInt64 := 0xFFFF900000000000
def HEAP_SIZE : UInt64 := 100 * 1024

def heapInit (cr3 : UInt64) : Action (Memory paging) Unit :=
  forAddresses HEAP_START (HEAP_START + HEAP_SIZE - 1) (fun page _ => do
    let frame ← expectFrame
    expectMapTo cr3 page frame ⟨true, false, false, false⟩) ()

/-- `ensure_mapped`: a page that is mapped already gets the flags of device memory. -/
def ensureMapped (cr3 hhdmOffset physAddr size : UInt64) : Action (Memory paging) Unit :=
  let flags : PageFlags := ⟨true, false, true, true⟩
  -- `size.saturating_sub(1)`
  let last := if size = 0 then 0 else size - 1
  forAddresses (physAddr + hhdmOffset) (physAddr + last + hhdmOffset) (fun page _ => do
    let frame ← expect (PhysAddr.new (page - hhdmOffset))
    match ← mapTo cr3 page (containingAddress frame) flags with
    | .ok () => pure ()
    | .error .pageAlreadyMapped =>
      Action.modify fun mem => { mem with tables := paging.updateFlags mem.tables cr3 page flags }
    | .error _ => Action.panic) ()

/-! ## The allocator is only ever asked for frames -/

def Takes (before after : Memory paging) : Prop := ∃ frames, before.allocator.Takes frames after.allocator

instance : Std.Refl (@Takes paging) := ⟨fun mem => ⟨[], .nil mem.allocator⟩⟩

instance : IsTrans (Memory paging) Takes where
  trans first second third left right := by
    obtain ⟨frames, left⟩ := left
    obtain ⟨more, right⟩ := right
    exact ⟨frames ++ more, left.trans right⟩

theorem takes_modify {change : Memory paging → Memory paging} (same : ∀ mem, (change mem).allocator = mem.allocator) :
    Action.Keeps Takes (Action.modify change) := by
  intro mem
  refine ⟨[], ?_⟩
  have kept : (Action.modify change mem).1.allocator = mem.allocator := same mem
  rw [kept]
  exact .nil _

theorem takes_allocateFrame : Action.Keeps Takes (@allocateFrame paging) := by
  intro mem
  unfold allocateFrame
  split
  next allocator frame returned =>
    cases frame with
    | none => exact ⟨[], BitmapAllocator.allocateFrame_none returned ▸ .nil _⟩
    | some frame => exact ⟨[frame], .cons returned (.nil _)⟩
  next => exact Std.Refl.refl mem

theorem takes_expectFrame : Action.Keeps Takes (@expectFrame paging) :=
  takes_allocateFrame.bind fun frame => Action.keeps_expect frame

theorem takes_mapTo (cr3 page frame : UInt64) (flags : PageFlags) :
    Action.Keeps Takes (@mapTo paging cr3 page frame flags) :=
  fun mem => paging.takes mem.tables mem.allocator cr3 page frame flags

theorem takes_expectMapTo (cr3 page frame : UInt64) (flags : PageFlags) :
    Action.Keeps Takes (@expectMapTo paging cr3 page frame flags) :=
  (takes_mapTo cr3 page frame flags).bind fun result => Action.keeps_expect result.toOption

theorem takes_newTable (cr3 currentCr3 : UInt64) : Action.Keeps Takes (@newTable paging cr3 currentCr3) :=
  takes_modify fun _ => rfl

theorem takes_zeroFrame (frame : UInt64) : Action.Keeps Takes (@zeroFrame paging frame) :=
  takes_modify fun _ => rfl

theorem takes_heapInit (cr3 : UInt64) : Action.Keeps Takes (@heapInit paging cr3) :=
  keeps_forAddresses (fun page _ => takes_expectFrame.bind fun frame => takes_expectMapTo cr3 page frame _) _ _ _

theorem takes_ensureMapped (cr3 hhdmOffset physAddr size : UInt64) :
    Action.Keeps Takes (@ensureMapped paging cr3 hhdmOffset physAddr size) := by
  refine keeps_forAddresses (fun page _ => ?_) _ _ _
  refine (Action.keeps_expect _).bind fun frame => (takes_mapTo _ _ _ _).bind fun result => ?_
  split
  · exact Action.keeps_pure ()
  · exact takes_modify fun _ => rfl
  · exact Action.keeps_panic

end Memory

end ElseOS
