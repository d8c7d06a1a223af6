import ElseOS.Arch.Acpi

/-! What the search finds in well-formed tables.

The root table lists its tables in words of four or eight bytes; the MADT is a header and
a list of entries, each with its type and length in front. -/

set_option autoImplicit false

namespace ElseOS.Acpi

open Base (ByteMemory)
open Base.Checked (Outcome run)

variable {memory : ByteMemory} {table hhdm sdt madt : UInt64} {isXsdt : Bool} {offset : Nat} {found : Controllers}

/-! ## The root table -/

/-- What the descriptor means: its root table is the XSDT if it has one, which it can from revision 2 on, and
otherwise the RSDT. -/
structure Points (memory : ByteMemory) (rsdp : UInt64) (isXsdt : Bool) (sdtAddr : UInt64) : Prop where
  signature : stretch memory rsdp 0 8 = rsdpSignature
  layout : isXsdt = true ↔ 2 ≤ memory (rsdp + UInt64.ofNat 15) ∧ littleEndian (stretch memory rsdp 24 8) ≠ 0
  rsdt : isXsdt = false → littleEndian (stretch memory rsdp 16 4) = sdtAddr.toNat
  xsdt : isXsdt = true → littleEndian (stretch memory rsdp 24 8) = sdtAddr.toNat

/-- The layout is one in which `init` takes the address from the descriptor. -/
def Heeded (memory : ByteMemory) (rsdp : UInt64) (isXsdt : Bool) : Prop :=
  isXsdt = true ∨ memory (rsdp + UInt64.ofNat 15) < 2

instance (memory : ByteMemory) (rsdp : UInt64) (isXsdt : Bool) : Decidable (Heeded memory rsdp isXsdt) :=
  inferInstanceAs (Decidable (_ ∨ _))

structure Lists (memory : ByteMemory) (sdt : UInt64) (isXsdt : Bool) (tables : List UInt64) : Prop where
  header : sdtHeaderSize ≤ declared memory sdt
  count : (declared memory sdt - sdtHeaderSize) / entryWidth isXsdt = tables.length
  entries : ∀ i (below : i < tables.length),
    littleEndian (stretch memory sdt (sdtHeaderSize + i * entryWidth isXsdt) (entryWidth isXsdt)) = tables[i].toNat

def firstMadt (memory : ByteMemory) (hhdm : UInt64) (tables : List UInt64) : Option UInt64 :=
  (tables.map (· + hhdm)).find? fun table => IsApic memory table

theorem Lists.listed {tables : List UInt64} (lists : Lists memory sdt isXsdt tables) {i : Nat}
    (below : i < tables.length) : listed memory hhdm sdt isXsdt i = tables[i] + hhdm := by
  unfold Acpi.listed
  rw [lists.entries i below, UInt64.ofNat_toNat]

theorem findMadt_listed {tables : List UInt64} (lists : Lists memory sdt isXsdt tables) {left i : Nat}
    (ends : i + left = tables.length) :
    findMadt (direct memory) hhdm sdt isXsdt left i = some ((firstMadt memory hhdm (tables.drop i)).getD 0) := by
  induction left generalizing i with
  | zero => rw [List.drop_eq_nil_of_le (by omega)]; rfl
  | succ left ih =>
    have below : i < tables.length := by omega
    rw [findMadt_direct, lists.listed below, List.drop_eq_getElem_cons below, firstMadt, List.map_cons, List.find?_cons]
    by_cases apic : IsApic memory (tables[i] + hhdm)
    · rw [if_pos apic, decide_eq_true apic]
      rfl
    · rw [if_neg apic, decide_eq_false apic]
      exact ih (by omega)

theorem firstMadt_ne_zero {tables : List UInt64} (mapped : ∀ table ∈ tables, table + hhdm ≠ 0)
    (first : firstMadt memory hhdm tables = some madt) : madt ≠ 0 := by
  obtain ⟨table, member, rfl⟩ := List.mem_map.mp (List.mem_of_find?_eq_some first)
  exact mapped table member

/-- The RSDT of a descriptor of revision 2 is not looked up: the search goes to address zero. -/
theorem rootTable_eq {rsdp sdtAddr : UInt64} (points : Points memory rsdp isXsdt sdtAddr) :
    rootTable (direct memory) rsdp = some (some (isXsdt, if Heeded memory rsdp isXsdt then sdtAddr else 0)) := by
  unfold rootTable
  rw [bytes_direct, points.signature]
  simp only [Option.bind_eq_bind, Option.bind_some, ne_eq, not_true_eq_false, if_false, direct_apply, number_direct]
  cases isXsdt with
  | true =>
    obtain ⟨revision, present⟩ := points.layout.mp rfl
    rw [if_pos revision, if_pos (.inl rfl), bne_iff_ne.mpr present, points.xsdt rfl, UInt64.ofNat_toNat]
    rfl
  | false =>
    by_cases revision : 2 ≤ memory (rsdp + UInt64.ofNat 15)
    · have absent : littleEndian (stretch memory rsdp 24 8) = 0 := by
        by_contra present
        cases points.layout.mpr ⟨revision, present⟩
      have ignored : ¬ Heeded memory rsdp false :=
        not_or.mpr ⟨Bool.false_ne_true, UInt8.not_lt.mpr revision⟩
      rw [if_pos revision, if_neg ignored, absent]
      rfl
    · rw [if_neg revision, if_pos (.inr (UInt8.not_le.mp revision)), points.rsdt rfl, UInt64.ofNat_toNat]
      rfl

theorem rootTable_found {rsdp sdtAddr : UInt64} (points : Points memory rsdp isXsdt sdtAddr) :
    rootTable (direct memory) rsdp = some (some (isXsdt, sdtAddr)) ↔ Heeded memory rsdp isXsdt ∨ sdtAddr = 0 := by
  rw [rootTable_eq points]
  by_cases heeded : Heeded memory rsdp isXsdt <;> simp [heeded, eq_comm]

theorem locateMadt_eq {rsdpAddr sdtAddr : UInt64} {tables : List UInt64}
    (found : rootTable (direct memory) (rsdpVirt hhdm rsdpAddr) = some (some (isXsdt, sdtAddr)))
    (lists : Lists memory (sdtAddr + hhdm) isXsdt tables) (mapped : ∀ table ∈ tables, table + hhdm ≠ 0) :
    locateMadt (direct memory) hhdm rsdpAddr = some (firstMadt memory hhdm tables) := by
  have walk := @findMadt_listed memory hhdm (sdtAddr + hhdm) isXsdt tables lists tables.length 0 (Nat.zero_add _)
  rw [← lists.count, ← entriesCount_eq lists.header declared_lt, List.drop_zero] at walk
  unfold locateMadt
  rw [found]
  simp only [Option.bind_eq_bind, Option.bind_some, number_direct]
  change (findMadt (direct memory) hhdm (sdtAddr + hhdm) isXsdt
    (entriesCount isXsdt (declared memory (sdtAddr + hhdm))) 0).bind _ = _
  rw [walk]
  cases first : firstMadt memory hhdm tables with
  | none => rfl
  | some madt => exact congrArg some (if_pos (firstMadt_ne_zero mapped first))

/-! ## The MADT -/

structure Entry where
  type : UInt8
  body : List UInt8
  short : body.length + 2 < 256
  ioapic : type = 1 → body.length = 10
  override : type = 2 → body.length = 8
  lapic : type = 5 → body.length = 10

def Entry.layout (entry : Entry) : List UInt8 := entry.type :: UInt8.ofNat (entry.body.length + 2) :: entry.body

def Entry.ioapicAddress (entry : Entry) : UInt64 := UInt64.ofNat (littleEndian (entry.layout.extract 4 8))

def Entry.lapicAddress (entry : Entry) : UInt64 := UInt64.ofNat (littleEndian (entry.layout.extract 4 12))

def layout (entries : List Entry) : List UInt8 := (entries.map Entry.layout).flatten

/-- The table at the address is a header and the entries, and ends with them. -/
structure Madt (memory : ByteMemory) (madt : UInt64) (entries : List Entry) : Prop where
  length : declared memory madt = madtHeaderSize + (layout entries).length
  content : stretch memory madt madtHeaderSize (layout entries).length = layout entries

def firstIoapic (entries : List Entry) : UInt64 :=
  (((entries.filter fun entry => entry.type = 1).map Entry.ioapicAddress).find? (· ≠ 0)).getD 0

def lastLapic (entries : List Entry) (default : UInt64) : UInt64 :=
  (((entries.filter fun entry => entry.type = 5).map Entry.lapicAddress).getLast?).getD default

def Entry.apply (found : Controllers) (entry : Entry) : Controllers :=
  if entry.type = 1 then
    { found with ioapicAddr := if found.ioapicAddr = 0 then entry.ioapicAddress else found.ioapicAddr }
  else if entry.type = 5 then { found with lapicAddr := entry.lapicAddress }
  else found

theorem stretch_extract {count first size : Nat} (inside : first + size ≤ count) :
    stretch memory table (offset + first) size = (stretch memory table offset count).extract first (first + size) := by
  apply List.ext_getElem?
  intro k
  rw [List.extract_eq_take_drop, Nat.add_sub_cancel_left, List.getElem?_take]
  unfold stretch
  by_cases below : k < size
  · rw [if_pos below, List.getElem?_drop, List.getElem?_map, List.getElem?_map, List.getElem?_range below,
      List.getElem?_range (by omega), Option.map_some, Option.map_some, Nat.add_assoc]
  · rw [if_neg below, List.getElem?_eq_none]
    rw [List.length_map, List.length_range]
    omega

theorem stretch_append {first second : List UInt8}
    (here : stretch memory table offset (first ++ second).length = first ++ second) :
    stretch memory table offset first.length = first ∧
      stretch memory table (offset + first.length) second.length = second := by
  have left := @stretch_extract memory table offset (first ++ second).length 0 first.length (by simp)
  have right := @stretch_extract memory table offset (first ++ second).length first.length second.length (by simp)
  rw [here, List.extract_eq_take_drop] at left right
  constructor
  · simpa using left
  · simpa using right

section Entry

variable {entry : Entry} (here : stretch memory madt offset entry.layout.length = entry.layout)

include here

theorem entry_byte {k : Nat} (below : k < entry.layout.length) :
    memory (madt + UInt64.ofNat (offset + k)) = entry.layout[k] := by
  have same := congrArg (fun bytes => bytes[k]?) here
  simp only [stretch, List.getElem?_map, List.getElem?_range below, Option.map_some,
    List.getElem?_eq_getElem below] at same
  exact Option.some.inj same

theorem entryType_entry : entryType memory madt offset = entry.type :=
  entry_byte here (Nat.succ_pos _)

theorem entryLen_entry : entryLen memory madt offset = entry.layout.length := by
  have short := entry.short
  have byte := @entry_byte memory madt offset entry here 1 (Nat.succ_lt_succ (Nat.succ_pos _))
  unfold entryLen
  rw [byte]
  change (UInt8.ofNat (entry.body.length + 2)).toNat = entry.body.length + 2
  rw [UInt8.toNat_ofNat']
  omega

theorem absorb_entry : absorb memory madt offset found = entry.apply found := by
  have length : entry.layout.length = entry.body.length + 2 := rfl
  unfold absorb Entry.apply
  rw [entryType_entry here]
  by_cases ioapic : entry.type = 1
  · have size := entry.ioapic ioapic
    have field := @stretch_extract memory madt offset entry.layout.length 4 4 (by omega)
    rw [if_pos ioapic, if_pos ioapic, field, here]
    rfl
  · rw [if_neg ioapic, if_neg ioapic]
    by_cases lapic : entry.type = 5
    · have size := entry.lapic lapic
      have field := @stretch_extract memory madt offset entry.layout.length 4 8 (by omega)
      have other : entry.type ≠ 2 := by rw [lapic]; decide
      rw [if_neg other, if_pos lapic, if_pos lapic, field, here]
      rfl
    · rw [if_neg lapic, if_neg lapic, ite_self]

end Entry

theorem run_entries {entries : List Entry} (here : stretch memory madt offset (layout entries).length = layout entries)
    (ends : offset + (layout entries).length = declared memory madt) {rounds : Nat} (enough : entries.length < rounds) :
    run (madtRound (direct memory) madt (declared memory madt)) rounds (offset, found) =
      .finished (entries.foldl Entry.apply found) := by
  induction entries generalizing offset found rounds with
  | nil =>
    obtain ⟨rounds, rfl⟩ : ∃ fewer, rounds = fewer + 1 := ⟨rounds - 1, by omega⟩
    exact Base.Checked.run_leaves (madtRound_end (Nat.le_of_eq ends.symm)) rounds
  | cons entry entries ih =>
    rw [List.length_cons] at enough
    obtain ⟨rounds, rfl⟩ : ∃ fewer, rounds = fewer + 1 := ⟨rounds - 1, by omega⟩
    have split : layout (entry :: entries) = entry.layout ++ layout entries := rfl
    rw [split] at here ends
    obtain ⟨first, rest⟩ := stretch_append here
    have positive : 0 < entry.layout.length := Nat.succ_pos _
    rw [List.length_append] at ends
    -- one round takes the walk from the entry to the one behind it
    rw [Base.Checked.run_next (madtRound_direct (by omega)), entryLen_entry first, absorb_entry first, List.foldl_cons]
    exact ih rest (by omega) (by omega)

theorem foldl_ioapicAddr (entries : List Entry) (found : Controllers) :
    (entries.foldl Entry.apply found).ioapicAddr =
      if found.ioapicAddr = 0 then firstIoapic entries else found.ioapicAddr := by
  induction entries generalizing found with
  | nil =>
    rw [List.foldl_nil]
    split
    next zero => exact zero
    next => rfl
  | cons entry entries ih =>
    rw [List.foldl_cons, ih]
    unfold firstIoapic Entry.apply
    by_cases ioapic : entry.type = 1
    · rw [if_pos ioapic, List.filter_cons_of_pos (by simpa using ioapic), List.map_cons, List.find?_cons]
      by_cases zero : found.ioapicAddr = 0
      · simp only [zero, if_true]
        by_cases none : entry.ioapicAddress = 0 <;> simp [none]
      · simp [zero]
    · rw [if_neg ioapic, List.filter_cons_of_neg (by simpa using ioapic)]
      split <;> rfl

theorem foldl_lapicAddr (entries : List Entry) (found : Controllers) :
    (entries.foldl Entry.apply found).lapicAddr = lastLapic entries found.lapicAddr := by
  induction entries generalizing found with
  | nil => rfl
  | cons entry entries ih =>
    rw [List.foldl_cons, ih]
    unfold lastLapic Entry.apply
    by_cases lapic : entry.type = 5
    · have other : entry.type ≠ 1 := by rw [lapic]; decide
      rw [if_neg other, if_pos lapic, List.filter_cons_of_pos (by simpa using lapic), List.map_cons, List.getLast?_cons]
      rfl
    · rw [if_neg lapic, List.filter_cons_of_neg (by simpa using lapic)]
      split <;> rfl

theorem parseMadt_eq {entries : List Entry} (table : Madt memory madt entries) {rounds : Nat}
    (enough : entries.length < rounds) :
    parseMadt (direct memory) madt found rounds = .finished (entries.foldl Entry.apply
      (afterHeader found (littleEndian (stretch memory madt 36 4)) (littleEndian (stretch memory madt 40 4)))) := by
  rw [← run_entries table.content table.length.symm enough]
  unfold parseMadt
  simp only [number_direct]
  rfl

/-- The root table is found exactly if it is the XSDT or the descriptor is older than revision 2 (or the table lies at
address zero). Of a root table that is found the first listed table with the signature is the one that is parsed, as
long as the direct map puts none of them at address zero; and of a MADT the first IOAPIC with an address and the last
override of the LAPIC count. -/
theorem discovery_finds (memory : ByteMemory) (hhdm : UInt64) :
    (∀ isXsdt rsdpAddr sdtAddr tables, Points memory (rsdpVirt hhdm rsdpAddr) isXsdt sdtAddr →
      (rootTable (direct memory) (rsdpVirt hhdm rsdpAddr) = some (some (isXsdt, sdtAddr)) ↔
        Heeded memory (rsdpVirt hhdm rsdpAddr) isXsdt ∨ sdtAddr = 0) ∧
      (Heeded memory (rsdpVirt hhdm rsdpAddr) isXsdt ∨ sdtAddr = 0 →
        Lists memory (sdtAddr + hhdm) isXsdt tables → (∀ table ∈ tables, table + hhdm ≠ 0) → ∀ found rounds,
          init (direct memory) hhdm rsdpAddr found rounds =
            match firstMadt memory hhdm tables with
            | some madt => parseMadt (direct memory) madt found rounds
            | none => .finished found)) ∧
    ∀ madt entries, Madt memory madt entries → ∀ found : Controllers, found.ioapicAddr = 0 →
      ∃ after, (∀ rounds, entries.length < rounds → parseMadt (direct memory) madt found rounds = .finished after) ∧
        after.ioapicAddr = firstIoapic entries ∧
        after.lapicAddr = lastLapic entries (UInt64.ofNat (littleEndian (stretch memory madt 36 4))) := by
  constructor
  · intro isXsdt rsdpAddr sdtAddr tables points
    refine ⟨rootTable_found points, fun heeded lists mapped found rounds => ?_⟩
    unfold init
    rw [locateMadt_eq ((rootTable_found points).mpr heeded) lists mapped]
    cases firstMadt memory hhdm tables <;> rfl
  · intro madt entries table found unset
    refine ⟨_, fun rounds enough => parseMadt_eq table enough, ?_, ?_⟩
    · rw [foldl_ioapicAddr]
      exact if_pos unset
    · rw [foldl_lapicAddr]
      rfl

/-! A descriptor at 0xF0000, an XSDT behind it that lists two tables, and the second of them
a MADT with an IOAPIC at address zero before the real one. -/

def sampleEntries : List Entry :=
  [⟨0, [0, 0, 1, 0, 0, 0], by decide, by decide, by decide, by decide⟩,
    ⟨1, [0, 0, 0, 0, 0, 0, 0, 0, 0, 0], by decide, by decide, by decide, by decide⟩,
    ⟨1, [1, 0, 0, 0, 0xC0, 0xFE, 24, 0, 0, 0], by decide, by decide, by decide, by decide⟩,
    ⟨5, [0, 0, 0, 0, 0xE1, 0xFE, 0, 0, 0, 0], by decide, by decide, by decide, by decide⟩,
    ⟨2, [0, 9, 9, 0, 0, 0, 13, 0], by decide, by decide, by decide, by decide⟩]

def sampleTables : List UInt8 :=
  (rsdpSignature ++ List.replicate 7 0 ++ [2] ++ List.replicate 8 0 ++ [0x24, 0, 0x0F, 0, 0, 0, 0, 0] ++
      List.replicate 4 0) ++
    -- the XSDT, at 0xF0024
    ([0x58, 0x53, 0x44, 0x54, 52, 0, 0, 0] ++ List.replicate 28 0 ++ [0x58, 0, 0x0F, 0, 0, 0, 0, 0] ++
      [0x60, 0, 0x0F, 0, 0, 0, 0, 0]) ++
    -- a table with another signature, at 0xF0058
    [0x46, 0x41, 0x43, 0x50, 36, 0, 0, 0] ++
    -- the MADT, at 0xF0060
    (apicSignature ++ [98, 0, 0, 0] ++ List.replicate 28 0 ++ [0, 0, 0xE0, 0xFE] ++ [1, 0, 0, 0] ++
      layout sampleEntries)

theorem discovery_finds_sample :
    ∃ after, init (direct (holding 0xFFFF8000000F0000 sampleTables)) 0xFFFF800000000000 0xF0000 ⟨0, 0, []⟩ 6 =
        .finished after ∧
      after.ioapicAddr = 0xFEC00000 ∧ after.lapicAddr = 0xFEE10000 := by
  obtain ⟨located, parsed⟩ := discovery_finds (holding 0xFFFF8000000F0000 sampleTables) 0xFFFF800000000000
  have mapped : ∀ table ∈ ([0xF0058, 0xF0060] : List UInt64), table + 0xFFFF800000000000 ≠ 0 := by
    intro table member
    rcases List.mem_pair.mp member with rfl | rfl <;> decide
  have first := (located true 0xF0000 0xF0024 [0xF0058, 0xF0060] ⟨by decide, by decide, nofun, fun _ => by decide⟩).2
    (.inl (.inl rfl)) ⟨by decide, by decide, by decide⟩ mapped ⟨0, 0, []⟩ 6
  obtain ⟨after, finishes, ioapic, lapic⟩ :=
    parsed 0xFFFF8000000F0060 sampleEntries ⟨by decide, by decide⟩ ⟨0, 0, []⟩ rfl
  have chosen : firstMadt (holding 0xFFFF8000000F0000 sampleTables) 0xFFFF800000000000 [0xF0058, 0xF0060] =
      some 0xFFFF8000000F0060 := by decide
  rw [chosen] at first
  refine ⟨after, first.trans (finishes 6 (by decide)), ioapic.trans (by decide), lapic.trans (by decide)⟩

/-! A descriptor of revision 2 that gives only an RSDT, with a table at address zero that lists nothing. -/

def rsdtTables : List UInt8 :=
  ([0, 0, 0, 0, 36, 0, 0, 0] ++ List.replicate 28 0) ++
    -- the descriptor, at 0x24
    (rsdpSignature ++ List.replicate 7 0 ++ [2] ++ [0x48, 0, 0, 0] ++ [36, 0, 0, 0] ++ List.replicate 12 0) ++
    -- the RSDT, at 0x48
    ([0x52, 0x53, 0x44, 0x54, 40, 0, 0, 0] ++ List.replicate 28 0 ++ [0x70, 0, 0, 0]) ++
    -- the MADT, at 0x70
    (apicSignature ++ [98, 0, 0, 0] ++ List.replicate 28 0 ++ [0, 0, 0xE0, 0xFE] ++ [1, 0, 0, 0] ++
      layout sampleEntries)

theorem rsdt_unheeded :
    Points (holding 0xFFFF800000000000 rsdtTables) (rsdpVirt 0xFFFF800000000000 0x24) false 0x48 ∧
    Lists (holding 0xFFFF800000000000 rsdtTables) (0x48 + 0xFFFF800000000000) false [0x70] ∧
    Madt (holding 0xFFFF800000000000 rsdtTables) 0xFFFF800000000070 sampleEntries ∧
    firstMadt (holding 0xFFFF800000000000 rsdtTables) 0xFFFF800000000000 [0x70] = some 0xFFFF800000000070 ∧
    firstIoapic sampleEntries = 0xFEC00000 ∧
    ∀ rounds, init (direct (holding 0xFFFF800000000000 rsdtTables)) 0xFFFF800000000000 0x24 ⟨0, 0, []⟩ rounds =
      .finished ⟨0, 0, []⟩ := by
  refine ⟨⟨by decide, by decide, fun _ => by decide, nofun⟩, ⟨by decide, by decide, by decide⟩, ⟨by decide, by decide⟩,
    by decide, by decide, fun rounds => ?_⟩
  have nowhere : locateMadt (direct (holding 0xFFFF800000000000 rsdtTables)) 0xFFFF800000000000 0x24 = some none := by
    decide
  rw [init, nowhere]

end ElseOS.Acpi
