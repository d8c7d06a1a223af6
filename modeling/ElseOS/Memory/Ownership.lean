import ElseOS.Elf.Loader

/-! What the lower half of an address space leads to.

Frames are handed out for two uses: the data of a process and the tables that lead to it.
Work in one address space maps data there and leaves the lower halves of the others
alone, so which frames an address space reaches is known from the calls made in it. -/

set_option autoImplicit false

namespace ElseOS

open Base (Action)

/-- Which frames hold page tables. Below the entries of its lower half, an address space has
tables of its own. -/
structure Paging.Separate (paging : Paging) where
  table : paging.Tables → UInt64 → Prop
  mapTo_elsewhere : ∀ tables allocator cr3 page frame flags space other, space ≠ cr3 → other.toNat < 2 ^ 47 →
    paging.lookup (paging.mapTo tables allocator cr3 page frame flags).1 space other = paging.lookup tables space other
  /-- A new table is in a frame that the call took. -/
  mapTo_table : ∀ tables allocator cr3 page frame flags, ∃ frames,
    BitmapAllocator.Takes allocator frames (paging.mapTo tables allocator cr3 page frame flags).2.1 ∧
    ∀ home, table (paging.mapTo tables allocator cr3 page frame flags).1 home → table tables home ∨ home ∈ frames
  newTable_elsewhere : ∀ tables cr3 current space page, space ≠ cr3 →
    paging.lookup (paging.newTable tables cr3 current) space page = paging.lookup tables space page
  newTable_lower : ∀ tables cr3 current page, page.toNat < 2 ^ 47 →
    paging.lookup (paging.newTable tables cr3 current) cr3 page = none
  newTable_table : ∀ tables cr3 current home, table (paging.newTable tables cr3 current) home →
    table tables home ∨ home = cr3
  updateFlags_table : ∀ tables cr3 page flags home, table (paging.updateFlags tables cr3 page flags) home →
    table tables home

namespace Paging

structure RecordedTables where
  entries : FlatTables
  homes : List UInt64

namespace RecordedTables

def mapTo (tables : RecordedTables) (allocator : BitmapAllocator) (cr3 page frame : UInt64) (flags : PageFlags) :
    RecordedTables × BitmapAllocator × MapResult :=
  match tables.entries.lookup (cr3, page) with
  | some _ => (tables, allocator, .error .pageAlreadyMapped)
  | none =>
    match allocator.allocateFrame with
    | some (after, some home) => (⟨((cr3, page), frame, flags) :: tables.entries, home :: tables.homes⟩, after, .ok)
    | some (after, none) => (tables, after, .error .frameAllocationFailed)
    | none => (tables, allocator, .panicked)

def newTable (tables : RecordedTables) (cr3 current : UInt64) : RecordedTables where
  entries := (tables.entries.filter fun entry => entry.1.1 = current && 2 ^ 47 ≤ entry.1.2.toNat).map
    (fun entry => ((cr3, entry.1.2), entry.2)) ++ tables.entries.filter fun entry => entry.1.1 ≠ cr3
  homes := cr3 :: tables.homes

variable (tables : RecordedTables) (allocator : BitmapAllocator) (cr3 page frame : UInt64) (flags : PageFlags)

theorem mapTo_cases :
    (∃ after home, tables.mapTo allocator cr3 page frame flags =
        (⟨((cr3, page), frame, flags) :: tables.entries, home :: tables.homes⟩, after, .ok) ∧
      tables.entries.lookup (cr3, page) = none ∧ allocator.allocateFrame = some (after, some home)) ∨
    ∃ result, tables.mapTo allocator cr3 page frame flags = (tables, allocator, result) ∧ result ≠ .ok := by
  unfold mapTo
  cases present : tables.entries.lookup (cr3, page) with
  | some entry => exact .inr ⟨_, rfl, nofun⟩
  | none =>
    rcases returned : allocator.allocateFrame with _ | ⟨after, _ | home⟩
    · exact .inr ⟨_, rfl, nofun⟩
    · rw [BitmapAllocator.allocateFrame_none returned]
      exact .inr ⟨_, rfl, nofun⟩
    · exact .inl ⟨after, home, rfl, rfl, rfl⟩

theorem lookup_mapTo {space other : UInt64} (different : (space, other) ≠ (cr3, page)) :
    (tables.mapTo allocator cr3 page frame flags).1.entries.lookup (space, other) =
      tables.entries.lookup (space, other) := by
  rcases tables.mapTo_cases allocator cr3 page frame flags
    with ⟨after, home, called, _⟩ | ⟨_, called, _⟩ <;> rw [called]
  rw [List.lookup_cons, beq_eq_false_iff_ne.mpr different]

theorem lookup_newTable {space : UInt64} (current : UInt64) (different : space ≠ cr3) :
    (tables.newTable cr3 current).entries.lookup (space, page) = tables.entries.lookup (space, page) := by
  have filtered (entries : FlatTables) :
      (entries.filter fun entry => entry.1.1 ≠ cr3).lookup (space, page) = entries.lookup (space, page) := by
    induction entries with
    | nil => rfl
    | cons entry rest ih =>
      rcases entry with ⟨⟨owner, address⟩, target⟩
      by_cases same : owner = cr3
      · have apart : ((space, page) == (owner, address)) = false := by simp [same, different]
        rw [List.filter_cons_of_neg (by simpa using same), ih, List.lookup_cons, apart]
      · rw [List.filter_cons_of_pos (by simpa using same), List.lookup_cons, List.lookup_cons, ih]
  unfold newTable
  rw [lookup_copies _ different, filtered]

theorem lookup_newTable_lower (current : UInt64) (low : page.toNat < 2 ^ 47) :
    (tables.newTable cr3 current).entries.lookup (cr3, page) = none := by
  rw [newTable, List.lookup_eq_none_iff]
  rintro ⟨key, target⟩ member
  rw [bne_iff_ne]
  rintro rfl
  rcases List.mem_append.mp member with copied | kept
  · -- only pages of the upper half are copied
    obtain ⟨old, isOld, same⟩ := List.mem_map.mp copied
    simp only [List.mem_filter, Bool.and_eq_true, decide_eq_true_eq] at isOld
    simp only [Prod.mk.injEq, true_and] at same
    rw [same.1] at isOld
    exact absurd isOld.2.2 (Nat.not_le.mpr low)
  · simp at kept

end RecordedTables

def recorded : Paging where
  Tables := RecordedTables
  lookup tables cr3 page := tables.entries.lookup (cr3, page)
  mapTo := RecordedTables.mapTo
  updateFlags tables cr3 page flags := { tables with
    entries := tables.entries.map fun entry => if entry.1 = (cr3, page) then (entry.1, entry.2.1, flags) else entry }
  newTable := RecordedTables.newTable
  takes tables allocator cr3 page frame flags := by
    rcases tables.mapTo_cases allocator cr3 page frame flags with ⟨after, home, called, _, returned⟩ | ⟨_, called, _⟩
    · exact ⟨[home], called ▸ .cons returned (.nil _)⟩
    · exact ⟨[], called ▸ .nil _⟩
  mapped tables allocator cr3 page frame flags ok := by
    rcases tables.mapTo_cases allocator cr3 page frame flags with ⟨after, home, called, absent, _⟩ | ⟨_, called, failed⟩
    · refine ⟨absent, ?_⟩
      rw [called, List.lookup_cons_self]
    · rw [called] at ok
      exact absurd ok failed
  otherPages tables allocator cr3 page frame flags other different :=
    tables.lookup_mapTo allocator cr3 page frame flags (by simpa using different)
  refused tables allocator cr3 page frame flags failed := by
    rcases tables.mapTo_cases allocator cr3 page frame flags with ⟨after, home, called, _⟩ | ⟨_, called, _⟩
    · rw [called] at failed
      exact absurd rfl failed
    · rw [called]

def recordedSeparate : recorded.Separate where
  table tables home := home ∈ tables.homes
  mapTo_elsewhere tables allocator cr3 page frame flags space other different _ :=
    tables.lookup_mapTo allocator cr3 page frame flags (by simp [different])
  mapTo_table tables allocator cr3 page frame flags := by
    change ∃ frames, allocator.Takes frames (tables.mapTo allocator cr3 page frame flags).2.1 ∧
      ∀ home, home ∈ (tables.mapTo allocator cr3 page frame flags).1.homes → home ∈ tables.homes ∨ home ∈ frames
    rcases tables.mapTo_cases allocator cr3 page frame flags
      with ⟨after, made, called, _, returned⟩ | ⟨_, called, _⟩ <;>
      rw [called]
    · refine ⟨[made], .cons returned (.nil _), ?_⟩
      intro home member
      rcases List.mem_cons.mp member with rfl | old
      · exact .inr List.mem_cons_self
      · exact .inl old
    · exact ⟨[], .nil _, fun home member => .inl member⟩
  newTable_elsewhere tables cr3 current space page different := tables.lookup_newTable cr3 page current different
  newTable_lower tables cr3 current page low := tables.lookup_newTable_lower cr3 page current low
  newTable_table tables cr3 current home member := (List.mem_cons.mp member).symm
  updateFlags_table _ _ _ _ _ member := member

end Paging

namespace Memory

variable {paging : Paging} {separate : paging.Separate} {allowed : UInt64 → Prop} {space : UInt64}
  {before middle after mem : Memory paging} {data more tables furtherTables : List UInt64}

def Leads (mem : Memory paging) (space frame : UInt64) : Prop :=
  ∃ page flags, page.toNat < 2 ^ 47 ∧ mem.lookup space page = some (frame, flags)

/-- Work in one address space that took frames for data and for tables, and mapped data or frames
that are allowed for another reason. -/
structure Extends (separate : paging.Separate) (allowed : UInt64 → Prop) (space : UInt64) (before after : Memory paging)
    (data tables : List UInt64) : Prop where
  takes : ∃ frames, before.allocator.Takes frames after.allocator ∧ frames.Perm (data ++ tables)
  elsewhere : ∀ other page, other ≠ space → page.toNat < 2 ^ 47 → after.lookup other page = before.lookup other page
  leads : ∀ frame, after.Leads space frame → before.Leads space frame ∨ frame ∈ data ∨ allowed frame
  made : ∀ home, separate.table after.tables home → separate.table before.tables home ∨ home ∈ tables

theorem extends_same (allocator : after.allocator = before.allocator) (same : after.tables = before.tables) :
    Extends separate allowed space before after [] [] := by
  have lookups : after.lookup = before.lookup := by
    unfold lookup
    rw [same]
  refine ⟨⟨[], ?_, .refl _⟩, fun other page _ _ => by rw [lookups], ?_, fun home isTable => .inl (same ▸ isTable)⟩
  · rw [allocator]
    exact .nil _
  · rintro frame ⟨page, flags, low, mapped⟩
    exact .inl ⟨page, flags, low, lookups ▸ mapped⟩

/-- What the second part of some work is allowed to map may be data of the first. -/
theorem Extends.trans {later : UInt64 → Prop} (first : Extends separate allowed space before middle data tables)
    (second : Extends separate later space middle after more furtherTables)
    (covered : ∀ frame, later frame → frame ∈ data ∨ allowed frame) :
    Extends separate allowed space before after (data ++ more) (tables ++ furtherTables) := by
  obtain ⟨frames, takes, uses⟩ := first.takes
  obtain ⟨moreFrames, takesMore, usesMore⟩ := second.takes
  refine ⟨⟨frames ++ moreFrames, takes.trans takesMore, ?_⟩, ?_, ?_, ?_⟩
  · refine (uses.append usesMore).trans ?_
    rw [List.append_assoc, List.append_assoc]
    exact (List.perm_append_comm_assoc tables more furtherTables).append_left data
  · intro other page different low
    rw [second.elsewhere other page different low, first.elsewhere other page different low]
  · intro frame leads
    rcases second.leads frame leads with old | new | granted
    · rcases first.leads frame old with older | data | granted
      · exact .inl older
      · exact .inr (.inl (List.mem_append_left _ data))
      · exact .inr (.inr granted)
    · exact .inr (.inl (List.mem_append_right _ new))
    · rcases covered frame granted with data | granted
      · exact .inr (.inl (List.mem_append_left _ data))
      · exact .inr (.inr granted)
  · intro home isTable
    rcases second.made home isTable with old | new
    · rcases first.made home old with older | table
      · exact .inl older
      · exact .inr (List.mem_append_left _ table)
    · exact .inr (List.mem_append_right _ new)

def Fills (separate : paging.Separate) (allowed : UInt64 → Prop) (space : UInt64) (before after : Memory paging) :
    Prop :=
  ∃ data tables, Extends separate allowed space before after data tables

instance : Std.Refl (@Fills paging separate allowed space) := ⟨fun _ => ⟨[], [], extends_same rfl rfl⟩⟩

instance : IsTrans (Memory paging) (Fills separate allowed space) where
  trans first second third left right := by
    obtain ⟨data, tables, left⟩ := left
    obtain ⟨more, furtherTables, right⟩ := right
    exact ⟨_, _, left.trans right fun _ granted => .inr granted⟩

/-! ## One call at a time -/

theorem fills_modify {change : Memory paging → Memory paging}
    (allocator : ∀ mem, (change mem).allocator = mem.allocator) (tables : ∀ mem, (change mem).tables = mem.tables) :
    Action.Keeps (Fills separate allowed space) (Action.modify change) :=
  fun mem => ⟨[], [], extends_same (allocator mem) (tables mem)⟩

theorem fills_zeroFrame (frame : UInt64) : Action.Keeps (Fills separate allowed space) (zeroFrame frame) :=
  fills_modify (fun _ => rfl) fun _ => rfl

theorem allocateFrame_cases (mem : Memory paging) :
    (∃ allocator frame, allocateFrame mem = ({ mem with allocator := allocator }, some (some frame)) ∧
      mem.allocator.Takes [frame] allocator) ∨
    allocateFrame mem = (mem, some none) ∨ allocateFrame mem = (mem, none) := by
  unfold allocateFrame
  rcases returned : mem.allocator.allocateFrame with _ | ⟨allocator, _ | frame⟩
  · exact .inr (.inr rfl)
  · rw [BitmapAllocator.allocateFrame_none returned]
    exact .inr (.inl rfl)
  · exact .inl ⟨allocator, frame, rfl, .cons returned (.nil _)⟩

theorem extends_expectFrame (mem : Memory paging) :
    Extends separate allowed space mem (expectFrame mem).1 (expectFrame mem).2.toList [] := by
  have same := tables_expectFrame mem
  have allocator : ∃ frames, mem.allocator.Takes frames (expectFrame mem).1.allocator ∧
      frames = (expectFrame mem).2.toList := by
    rcases allocateFrame_cases mem with ⟨allocator, frame, asked, takes⟩ | asked | asked
    · rw [expectFrame, Action.bind_some asked]
      exact ⟨[frame], takes, rfl⟩
    · rw [expectFrame, Action.bind_some asked]
      exact ⟨[], .nil _, rfl⟩
    · rw [expectFrame, Action.bind_none asked]
      exact ⟨[], .nil _, rfl⟩
  have rest : Extends separate allowed space mem { (expectFrame mem).1 with allocator := mem.allocator } [] [] :=
    extends_same rfl same
  obtain ⟨frames, takes, isFrames⟩ := allocator
  refine ⟨⟨frames, takes, by rw [isFrames, List.append_nil]⟩, rest.elsewhere, ?_, ?_⟩
  · intro frame leads
    rcases rest.leads frame leads with old | none | granted
    · exact .inl old
    · cases none
    · exact .inr (.inr granted)
  · intro home isTable
    exact rest.made home isTable

theorem extends_expectMapTo (mem : Memory paging) (page : UInt64) {frame : UInt64} (flags : PageFlags)
    (may : allowed frame) :
    ∃ tables, Extends separate allowed space mem (expectMapTo space page frame flags mem).1 [] tables := by
  obtain ⟨frames, takes, isTable⟩ := separate.mapTo_table mem.tables mem.allocator space page frame flags
  have elsewhere := separate.mapTo_elsewhere mem.tables mem.allocator space page frame flags
  rcases ran : expectMapTo space page frame flags mem with ⟨after, result⟩
  have translations := expectMapTo_spec ran
  rw [expectMapTo_eq] at ran
  cases ran
  refine ⟨frames, ⟨frames, takes, .refl _⟩, elsewhere, ?_, isTable⟩
  rintro other ⟨reached, entry, low, mapped⟩
  rcases translations with ⟨_, _, updated⟩ | ⟨_, same⟩
  · rw [updated] at mapped
    by_cases here : reached = page
    · rw [here, Function.update_self] at mapped
      cases mapped
      exact .inr (.inr may)
    · rw [Function.update_of_ne here] at mapped
      exact .inl ⟨reached, entry, low, mapped⟩
  · rw [same] at mapped
    exact .inl ⟨reached, entry, low, mapped⟩

theorem fills_mapFresh (page : UInt64) (flags : PageFlags) {rest : UInt64 → Action (Memory paging) Unit}
    (contents : ∀ frame, Action.Keeps (Fills separate allowed space) (rest frame)) :
    Action.Keeps (Fills separate allowed space) (do
      let frame ← expectFrame
      expectMapTo space page frame flags
      rest frame) := by
  intro mem
  have taken : Extends separate allowed space mem (expectFrame mem).1 (expectFrame mem).2.toList [] :=
    extends_expectFrame mem
  rcases asked : expectFrame mem with ⟨middle, _ | frame⟩ <;> rw [asked] at taken
  · rw [Action.bind_none asked]
    exact ⟨_, _, taken⟩
  · rw [Action.bind_some asked]
    obtain ⟨tables, mapped⟩ := @extends_expectMapTo paging separate (· = frame) space middle page frame flags rfl
    have both : Fills separate allowed space mem (expectMapTo space page frame flags middle).1 :=
      ⟨_, _, taken.trans mapped fun other same => .inl (by simp [same])⟩
    rcases ran : expectMapTo space page frame flags middle with ⟨last, _ | done⟩ <;> rw [ran] at both
    · rw [Action.bind_none ran]
      exact both
    · rw [Action.bind_some ran]
      exact IsTrans.trans _ _ _ both (contents frame last)

/-! ## Tables alone -/

def Builds (separate : paging.Separate) (before after : Memory paging) : Prop :=
  ∃ frames, before.allocator.Takes frames after.allocator ∧
    ∀ home, separate.table after.tables home → separate.table before.tables home ∨ home ∈ frames

instance : Std.Refl (@Builds paging separate) := ⟨fun mem => ⟨[], .nil mem.allocator, fun _ table => .inl table⟩⟩

instance : IsTrans (Memory paging) (Builds separate) where
  trans first second third left right := by
    obtain ⟨frames, takes, made⟩ := left
    obtain ⟨further, takesMore, madeMore⟩ := right
    refine ⟨frames ++ further, takes.trans takesMore, ?_⟩
    intro home table
    rcases madeMore home table with old | new
    · exact (made home old).imp_right (List.mem_append_left _)
    · exact .inr (List.mem_append_right _ new)

theorem builds_expectFrame : Action.Keeps (Builds separate) (@expectFrame paging) := by
  intro mem
  have taken : Extends separate (fun _ => False) 0 mem (expectFrame mem).1 (expectFrame mem).2.toList [] :=
    extends_expectFrame mem
  obtain ⟨frames, takes, _⟩ := taken.takes
  exact ⟨frames, takes, fun home table => .inl ((taken.made home table).resolve_right nofun)⟩

theorem builds_mapTo (cr3 page frame : UInt64) (flags : PageFlags) :
    Action.Keeps (Builds separate) (mapTo cr3 page frame flags) :=
  fun mem => separate.mapTo_table mem.tables mem.allocator cr3 page frame flags

theorem builds_heapInit (cr3 : UInt64) : Action.Keeps (Builds separate) (heapInit cr3) :=
  keeps_forAddresses (fun page _ => builds_expectFrame.bind fun frame =>
    (builds_mapTo cr3 page frame _).bind fun result => Action.keeps_expect result.toOption) _ _ _

theorem builds_ensureMapped (cr3 hhdmOffset physAddr size : UInt64) :
    Action.Keeps (Builds separate) (ensureMapped cr3 hhdmOffset physAddr size) := by
  refine keeps_forAddresses (fun page _ => ?_) _ _ _
  refine (Action.keeps_expect _).bind fun frame => (builds_mapTo _ _ _ _).bind fun result => ?_
  split
  · exact Action.keeps_pure ()
  · exact fun mem => ⟨[], .nil mem.allocator, fun home table => .inl (separate.updateFlags_table _ _ _ _ home table)⟩
  · exact Action.keeps_panic

end Memory

/-! ## The loader -/

namespace Elf

open Memory

variable {paging : Paging} {separate : paging.Separate} {allowed : UInt64 → Prop} {space : UInt64}

theorem fills_loadPage (image : ElfImage) (segment : Segment) (page : UInt64) :
    Action.Keeps (Fills separate allowed space) (loadPage image segment space page) := by
  refine fills_mapFresh page userFlags fun frame => ?_
  refine (fills_zeroFrame frame).bind fun _ => ?_
  exact keeps_copyPage (fun _ => fills_modify (fun _ => rfl) fun _ => rfl) segment page frame

theorem fills_mapStackPage (i : Nat) : Action.Keeps (Fills separate allowed space) (mapStackPage space i) := by
  refine (Action.keeps_expect _).bind fun addr => ?_
  have mapped := @fills_mapFresh paging separate allowed space (containingAddress addr) userFlags (fun _ => pure ())
    fun _ => Action.keeps_pure ()
  have ends : ∀ frame, (expectMapTo space (containingAddress addr) frame userFlags >>= fun _ => pure () :
      Action (Memory paging) Unit) = expectMapTo space (containingAddress addr) frame userFlags :=
    fun frame => Action.bind_pure _
  simp only [ends] at mapped
  exact mapped

theorem fills_fillSpace (image : ElfImage) : Action.Keeps (Fills separate allowed space) (fillSpace image space) :=
  keeps_fillSpace (fun segment page => fills_loadPage image segment page) fills_mapStackPage

/-- The new address space leads to fresh data only; the others lead where they led. -/
structure Installs (separate : paging.Separate) (before after : Memory paging) (result : Option (UInt64 × UInt64))
    (data tables : List UInt64) : Prop where
  takes : ∃ frames, before.allocator.Takes frames after.allocator ∧ frames.Perm (data ++ tables)
  elsewhere : ∀ other page, other ∉ tables → page.toNat < 2 ^ 47 → after.lookup other page = before.lookup other page
  made : ∀ home, separate.table after.tables home → separate.table before.tables home ∨ home ∈ tables
  space : ∀ entryPoint cr3, result = some (entryPoint, cr3) →
    cr3 ∈ tables ∧ ∀ frame, after.Leads cr3 frame → frame ∈ data

theorem installs_nothing (separate : paging.Separate) (mem : Memory paging) : Installs separate mem mem none [] [] :=
  ⟨⟨[], .nil _, .refl _⟩, fun _ _ _ _ => rfl, fun _ isTable => .inl isTable, nofun⟩

/-- A new table leads nowhere in its lower half, and what is filled in there is fresh data. -/
theorem installs_fillSpace {image : ElfImage} {currentCr3 cr3 : UInt64} {mem middle : Memory paging}
    (asked : expectFrame mem = (middle, some cr3)) (takes : mem.allocator.Takes [cr3] middle.allocator) :
    let filled := fillSpace image cr3 (newTable cr3 currentCr3 middle).1
    ∃ data tables, Installs separate mem filled.1 filled.2 data tables := by
  have same := tables_expectFrame mem
  rw [asked] at same
  have started : (newTable cr3 currentCr3 middle).1.tables = paging.newTable mem.tables cr3 currentCr3 := by
    rw [← same]
    rfl
  obtain ⟨data, tables, filled⟩ := @fills_fillSpace paging separate (fun _ => False) cr3 image
    (newTable cr3 currentCr3 middle).1
  obtain ⟨frames, more, uses⟩ := filled.takes
  refine ⟨data, cr3 :: tables, ⟨cr3 :: frames, takes.trans more, ?_⟩, ?_, ?_, ?_⟩
  · exact (uses.cons cr3).trans List.perm_middle.symm
  · intro other page apart low
    rw [List.mem_cons, not_or] at apart
    rw [filled.elsewhere other page apart.1 low, lookup, started]
    exact separate.newTable_elsewhere mem.tables cr3 currentCr3 other page apart.1
  · intro home isTable
    rcases filled.made home isTable with old | new
    · rw [started] at old
      rcases separate.newTable_table _ _ _ home old with older | rfl
      · exact .inl older
      · exact .inr List.mem_cons_self
    · exact .inr (List.mem_cons_of_mem _ new)
  · intro entryPoint table finished
    obtain rfl : table = cr3 := fillSpace_cr3 (Prod.ext rfl finished)
    refine ⟨List.mem_cons_self, ?_⟩
    intro frame leads
    rcases filled.leads frame leads with ⟨page, flags, low, mapped⟩ | data | never
    · rw [lookup, started, separate.newTable_lower _ _ _ _ low] at mapped
      cases mapped
    · exact data
    · exact never.elim

theorem installs_load (separate : paging.Separate) (image : ElfImage) (currentCr3 : UInt64) (mem : Memory paging) :
    ∃ data tables, Installs separate mem (load image currentCr3 mem).1 (load image currentCr3 mem).2 data tables := by
  rw [load]
  cases sized : decide (ehdrSize ≤ image.len) with
  | false => exact ⟨[], [], installs_nothing separate mem⟩
  | true =>
    rw [Action.require_bind rfl]
    cases magic : decide (image.read 0 4 = some ELFMAG) with
    | false => exact ⟨[], [], installs_nothing separate mem⟩
    | true =>
      rw [Action.require_bind rfl]
      have taken : Extends separate (fun _ => False) 0 mem (expectFrame mem).1 (expectFrame mem).2.toList [] :=
        extends_expectFrame mem
      have same := tables_expectFrame mem
      rcases asked : expectFrame mem with ⟨middle, _ | cr3⟩ <;> rw [asked] at taken same
      · rw [Action.bind_none asked]
        refine ⟨[], [], taken.takes, ?_, taken.made, by rintro _ _ ⟨⟩⟩
        intro other page _ _
        rw [lookup, same, lookup]
      · rw [Action.bind_some asked]
        obtain ⟨frames, takes, uses⟩ := taken.takes
        rw [List.perm_singleton.mp uses] at takes
        exact installs_fillSpace asked takes

end Elf

end ElseOS
