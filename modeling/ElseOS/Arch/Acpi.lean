import ElseOS.Base.ByteMemory
import ElseOS.Base.Checked

/-! The search for the interrupt controllers in the ACPI tables.

Every read of the source is at an offset into a table, so memory is accessed by table and
offset; an access that is not there fails. `direct` reads all of memory, as the source
does. `within` gives of each table only the bytes that its header declares. `ensure_mapped`
is left out: it changes the page table, not the tables that are read. -/

set_option autoImplicit false

namespace ElseOS.Acpi

open Base (ByteMemory)
open Base.Checked (Outcome run)

abbrev Access := (table : UInt64) → (offset : Nat) → Option UInt8

namespace Access

def bytes (access : Access) (table : UInt64) (offset : Nat) : (count : Nat) → Option (List UInt8)
  | 0 => some []
  | count + 1 => do
    let before ← access.bytes table offset count
    let byte ← access table (offset + count)
    return before ++ [byte]

end Access

def littleEndian : List UInt8 → Nat
  | [] => 0
  | byte :: rest => byte.toNat + 256 * littleEndian rest

def Access.number (access : Access) (table : UInt64) (offset count : Nat) : Option Nat :=
  (access.bytes table offset count).map littleEndian

/-! ## The source -/

/-- The static variables that the search sets, and the writes to ports on the way. -/
structure Controllers where
  lapicAddr : UInt64
  ioapicAddr : UInt64
  ports : List (UInt16 × UInt8)
  deriving DecidableEq, Repr

def sdtHeaderSize : Nat := 36

def madtHeaderSize : Nat := 44

def entryWidth (isXsdt : Bool) : Nat := if isXsdt then 8 else 4

/-- `entries_count`; the subtraction wraps around in a release build. -/
def entriesCount (isXsdt : Bool) (length : Nat) : Nat :=
  (UInt64.ofNat length - UInt64.ofNat sdtHeaderSize).toNat / entryWidth isXsdt

def apicSignature : List UInt8 := [0x41, 0x50, 0x49, 0x43]

def rsdpSignature : List UInt8 := [0x52, 0x53, 0x44, 0x20, 0x50, 0x54, 0x52, 0x20]

/-- The loop over the entries of the root table, from entry `i` on: the virtual address of
the first table with the signature, or 0. -/
def findMadt (access : Access) (hhdm sdtVirt : UInt64) (isXsdt : Bool) : (left i : Nat) → Option UInt64
  | 0, _ => some 0
  | left + 1, i => do
    let entryPhys ← access.number sdtVirt (sdtHeaderSize + i * entryWidth isXsdt) (entryWidth isXsdt)
    let entryVirt := UInt64.ofNat entryPhys + hhdm
    -- the length is read for `ensure_mapped`
    let _ ← access.number entryVirt 4 4
    let signature ← access.bytes entryVirt 0 4
    if signature = apicSignature then return entryVirt
    findMadt access hhdm sdtVirt isXsdt left (i + 1)

def readEntry (access : Access) (madtVirt : UInt64) (offset : Nat) (found : Controllers) :
    Option (Nat × Controllers) := do
  let entryType ← access madtVirt offset
  let entryLen ← access madtVirt (offset + 1)
  if entryType = 1 then
    let _ioapicId ← access madtVirt (offset + 2)
    let ioapicAddr ← access.number madtVirt (offset + 4) 4
    let _gsiBase ← access.number madtVirt (offset + 8) 4
    return (entryLen.toNat,
      { found with ioapicAddr := if found.ioapicAddr = 0 then UInt64.ofNat ioapicAddr else found.ioapicAddr })
  else if entryType = 2 then
    let _bus ← access madtVirt (offset + 2)
    let _source ← access madtVirt (offset + 3)
    let _gsi ← access.number madtVirt (offset + 4) 4
    let _flags ← access.number madtVirt (offset + 8) 2
    return (entryLen.toNat, found)
  else if entryType = 5 then
    let lapicAddr ← access.number madtVirt (offset + 4) 8
    return (entryLen.toNat, { found with lapicAddr := UInt64.ofNat lapicAddr })
  else return (entryLen.toNat, found)

def madtRound (access : Access) (madtVirt : UInt64) (stop : Nat) (walk : Nat × Controllers) :
    Option (Controllers ⊕ (Nat × Controllers)) := do
  if walk.1 < stop then
    let (entryLen, found) ← readEntry access madtVirt walk.1 walk.2
    return .inr (walk.1 + entryLen, found)
  else return .inl walk.2

/-- What `parse_madt` does with the header: with PCAT_COMPAT set it switches to APIC mode
through the IMCR. -/
def afterHeader (found : Controllers) (lapicAddr flags : Nat) : Controllers :=
  { found with
    lapicAddr := UInt64.ofNat lapicAddr
    ports := if flags % 2 = 1 then found.ports ++ [(0x22, 0x70), (0x23, 0x01)] else found.ports }

def parseMadt (access : Access) (madtVirt : UInt64) (found : Controllers) (rounds : Nat) : Outcome Controllers :=
  let header : Option (Nat × Nat × Nat) := do
    return (← access.number madtVirt 36 4, ← access.number madtVirt 40 4, ← access.number madtVirt 4 4)
  match header with
  | none => .failed
  | some (lapicAddr, flags, length) =>
    run (madtRound access madtVirt length) rounds (madtHeaderSize, afterHeader found lapicAddr flags)

def rsdpVirt (hhdm rsdpAddr : UInt64) : UInt64 := if rsdpAddr < hhdm then rsdpAddr + hhdm else rsdpAddr

/-- The part of `init` that reads the descriptor: `is_xsdt` and `sdt_addr`, or nothing if
the signature is wrong. -/
def rootTable (access : Access) (rsdp : UInt64) : Option (Option (Bool × UInt64)) := do
  if (← access.bytes rsdp 0 8) ≠ rsdpSignature then return none
  let revision ← access rsdp 15
  if 2 ≤ revision then
    -- without an XSDT the address stays zero, since the RSDT is not looked up
    let xsdtAddr ← access.number rsdp 24 8
    return some (xsdtAddr != 0, UInt64.ofNat xsdtAddr)
  else
    let rsdtAddr ← access.number rsdp 16 4
    return some (false, UInt64.ofNat rsdtAddr)

def locateMadt (access : Access) (hhdm rsdpAddr : UInt64) : Option (Option UInt64) := do
  match ← rootTable access (rsdpVirt hhdm rsdpAddr) with
  | none => return none
  | some (isXsdt, sdtAddr) =>
    let sdtVirt := sdtAddr + hhdm
    let length ← access.number sdtVirt 4 4
    let madtVirt ← findMadt access hhdm sdtVirt isXsdt (entriesCount isXsdt length) 0
    return if madtVirt ≠ 0 then some madtVirt else none

def init (access : Access) (hhdm rsdpAddr : UInt64) (found : Controllers) (rounds : Nat) : Outcome Controllers :=
  match locateMadt access hhdm rsdpAddr with
  | none => .failed
  | some none => .finished found
  | some (some madtVirt) => parseMadt access madtVirt found rounds

/-! ## Two ways to access memory -/

def direct (memory : ByteMemory) : Access := fun table offset => some (memory (table + UInt64.ofNat offset))

def stretch (memory : ByteMemory) (table : UInt64) (offset count : Nat) : List UInt8 :=
  (List.range count).map fun k => memory (table + UInt64.ofNat (offset + k))

def declared (memory : ByteMemory) (table : UInt64) : Nat := littleEndian (stretch memory table 4 4)

def within (memory : ByteMemory) : Access := fun table offset =>
  if offset < declared memory table then direct memory table offset else none

variable {memory : ByteMemory} {table hhdm sdt madt : UInt64} {isXsdt : Bool} {offset count : Nat} {found : Controllers}

theorem littleEndian_lt (bytes : List UInt8) : littleEndian bytes < 256 ^ bytes.length := by
  induction bytes with
  | nil => decide
  | cons byte rest ih =>
    have small := byte.toNat_lt
    rw [littleEndian, List.length_cons, Nat.pow_succ]
    omega

@[simp] theorem length_stretch : (stretch memory table offset count).length = count := by
  rw [stretch, List.length_map, List.length_range]

theorem declared_lt : declared memory table < 2 ^ 32 := by
  have bound := littleEndian_lt (stretch memory table 4 4)
  rw [length_stretch] at bound
  exact bound

theorem stretch_succ :
    stretch memory table offset (count + 1) =
      stretch memory table offset count ++ [memory (table + UInt64.ofNat (offset + count))] := by
  rw [stretch, List.range_succ, List.map_append, List.map_singleton]
  rfl

@[simp] theorem bytes_direct : (direct memory).bytes table offset count = some (stretch memory table offset count) := by
  induction count with
  | zero => rfl
  | succ count ih =>
    rw [Access.bytes, ih, stretch_succ]
    rfl

theorem direct_apply : direct memory table offset = some (memory (table + UInt64.ofNat offset)) := rfl

theorem within_inside (inside : offset < declared memory table) :
    within memory table offset = some (memory (table + UInt64.ofNat offset)) := if_pos inside

theorem within_outside (outside : declared memory table ≤ offset) : within memory table offset = none :=
  if_neg (Nat.not_lt.mpr outside)

theorem bytes_inside (inside : offset + count ≤ declared memory table) :
    (within memory).bytes table offset count = some (stretch memory table offset count) := by
  induction count with
  | zero => rfl
  | succ count ih =>
    rw [Access.bytes, ih (by omega), within_inside (by omega), stretch_succ]
    rfl

theorem bytes_outside (positive : 0 < count) (outside : declared memory table < offset + count) :
    (within memory).bytes table offset count = none := by
  obtain ⟨fewer, rfl⟩ : ∃ fewer, count = fewer + 1 := ⟨count - 1, by omega⟩
  rw [Access.bytes, within_outside (by omega)]
  cases (within memory).bytes table offset fewer <;> rfl

@[simp] theorem number_direct :
    (direct memory).number table offset count = some (littleEndian (stretch memory table offset count)) := by
  rw [Access.number, bytes_direct, Option.map_some]

theorem number_inside (inside : offset + count ≤ declared memory table) :
    (within memory).number table offset count = some (littleEndian (stretch memory table offset count)) := by
  rw [Access.number, bytes_inside inside, Option.map_some]

theorem number_outside (positive : 0 < count) (outside : declared memory table < offset + count) :
    (within memory).number table offset count = none := by
  rw [Access.number, bytes_outside positive outside, Option.map_none]

/-! ## The root table -/

def listed (memory : ByteMemory) (hhdm sdt : UInt64) (isXsdt : Bool) (i : Nat) : UInt64 :=
  UInt64.ofNat (littleEndian (stretch memory sdt (sdtHeaderSize + i * entryWidth isXsdt) (entryWidth isXsdt))) + hhdm

def IsApic (memory : ByteMemory) (table : UInt64) : Prop := stretch memory table 0 4 = apicSignature

instance : Decidable (IsApic memory table) := inferInstanceAs (Decidable (_ = _))

theorem entryWidth_pos (isXsdt : Bool) : 0 < entryWidth isXsdt := by cases isXsdt <;> decide

theorem entryWidth_le (isXsdt : Bool) : entryWidth isXsdt ≤ 8 := by cases isXsdt <;> decide

theorem findMadt_direct (left i : Nat) :
    findMadt (direct memory) hhdm sdt isXsdt (left + 1) i =
      if IsApic memory (listed memory hhdm sdt isXsdt i) then some (listed memory hhdm sdt isXsdt i)
      else findMadt (direct memory) hhdm sdt isXsdt left (i + 1) := by
  rw [findMadt, number_direct]
  simp only [Option.bind_eq_bind, Option.bind_some, number_direct, bytes_direct]
  rfl

theorem findMadt_within {i : Nat} (left : Nat)
    (room : sdtHeaderSize + (i + 1) * entryWidth isXsdt ≤ declared memory sdt) :
    findMadt (within memory) hhdm sdt isXsdt (left + 1) i =
      if 8 ≤ declared memory (listed memory hhdm sdt isXsdt i) then
        if IsApic memory (listed memory hhdm sdt isXsdt i) then some (listed memory hhdm sdt isXsdt i)
        else findMadt (within memory) hhdm sdt isXsdt left (i + 1)
      else none := by
  rw [Nat.succ_mul] at room
  rw [findMadt, number_inside (by omega)]
  simp only [Option.bind_eq_bind, Option.bind_some]
  by_cases enough : 8 ≤ declared memory (listed memory hhdm sdt isXsdt i)
  · unfold listed at enough ⊢
    rw [number_inside enough, bytes_inside (by omega), if_pos enough]
    rfl
  · unfold listed at enough ⊢
    rw [number_outside (by decide) (by omega), if_neg enough]
    rfl

/-- The walk over the root table ends, and with the declared bytes of each table alone it
ends the same way. -/
def RootInside (memory : ByteMemory) (hhdm sdt : UInt64) (isXsdt : Bool) : Prop :=
  ∃ madt, findMadt (direct memory) hhdm sdt isXsdt (entriesCount isXsdt (declared memory sdt)) 0 = some madt ∧
    findMadt (within memory) hhdm sdt isXsdt (entriesCount isXsdt (declared memory sdt)) 0 = some madt

/-- Every table that the walk comes to declares at least the fields that are read of it. -/
def HeadersPresent (memory : ByteMemory) (hhdm sdt : UInt64) (isXsdt : Bool) (first last : Nat) : Prop :=
  ∀ i, first ≤ i → i < last → (∀ j, first ≤ j → j < i → ¬ IsApic memory (listed memory hhdm sdt isXsdt j)) →
    8 ≤ declared memory (listed memory hhdm sdt isXsdt i)

theorem entriesCount_eq {length : Nat} (enough : sdtHeaderSize ≤ length) (small : length < 2 ^ 32) :
    entriesCount isXsdt length = (length - sdtHeaderSize) / entryWidth isXsdt := by
  unfold sdtHeaderSize at *
  have exact : (UInt64.ofNat length - UInt64.ofNat 36).toNat = length - 36 := by
    rw [UInt64.toNat_sub, UInt64.toNat_ofNat', UInt64.toNat_ofNat']
    omega
  rw [entriesCount, sdtHeaderSize, exact]

theorem entriesCount_pos {length : Nat} (short : length < sdtHeaderSize) : 0 < entriesCount isXsdt length := by
  unfold sdtHeaderSize at short
  have wrapped : (UInt64.ofNat length - UInt64.ofNat 36).toNat = 2 ^ 64 + length - 36 := by
    rw [UInt64.toNat_sub, UInt64.toNat_ofNat', UInt64.toNat_ofNat']
    omega
  rw [entriesCount, sdtHeaderSize, wrapped]
  apply Nat.div_pos
  · exact Nat.le_trans (entryWidth_le isXsdt) (by omega)
  · exact entryWidth_pos isXsdt

theorem findMadt_inside_iff {left i : Nat}
    (room : sdtHeaderSize + (i + left) * entryWidth isXsdt ≤ declared memory sdt) :
    (∃ madt, findMadt (direct memory) hhdm sdt isXsdt left i = some madt ∧
      findMadt (within memory) hhdm sdt isXsdt left i = some madt) ↔
      HeadersPresent memory hhdm sdt isXsdt i (i + left) := by
  induction left generalizing i with
  | zero => exact ⟨fun _ k above below => absurd below (by omega), fun _ => ⟨0, rfl, rfl⟩⟩
  | succ left ih =>
    have later := @ih (i + 1) (by rwa [Nat.add_right_comm i 1 left])
    have this : sdtHeaderSize + (i + 1) * entryWidth isXsdt ≤ declared memory sdt := by
      have monotone := Nat.mul_le_mul_right (entryWidth isXsdt) (show i + 1 ≤ i + (left + 1) by omega)
      omega
    rw [findMadt_direct, findMadt_within left this]
    by_cases enough : 8 ≤ declared memory (listed memory hhdm sdt isXsdt i)
    · rw [if_pos enough]
      by_cases apic : IsApic memory (listed memory hhdm sdt isXsdt i)
      -- the loop ends here, and the tables behind are not looked at
      · rw [if_pos apic, if_pos apic]
        refine ⟨?_, fun _ => ⟨_, rfl, rfl⟩⟩
        intro _ k above below none
        rcases Nat.eq_or_lt_of_le above with rfl | behind
        · exact enough
        · exact absurd apic (none i (Nat.le_refl i) behind)
      · rw [if_neg apic, if_neg apic, later]
        constructor
        · intro present k above below none
          rcases Nat.eq_or_lt_of_le above with rfl | behind
          · exact enough
          · exact present k behind (by omega) fun j after before => none j (by omega) before
        · intro present k above below none
          apply present k (by omega) (by omega)
          intro j after before
          rcases Nat.eq_or_lt_of_le after with rfl | behind
          · exact apic
          · exact none j behind before
    -- the signature cannot be compared within the length that the table declares
    · rw [if_neg enough]
      constructor
      · rintro ⟨_, _, failed⟩
        cases failed
      · intro present
        exact absurd (present i (Nat.le_refl i) (by omega) fun j after before => absurd before (by omega)) enough

theorem rootInside_iff :
    RootInside memory hhdm sdt isXsdt ↔ sdtHeaderSize ≤ declared memory sdt ∧
      HeadersPresent memory hhdm sdt isXsdt 0 ((declared memory sdt - sdtHeaderSize) / entryWidth isXsdt) := by
  unfold RootInside
  by_cases enough : sdtHeaderSize ≤ declared memory sdt
  · have room : sdtHeaderSize + (0 + (declared memory sdt - sdtHeaderSize) / entryWidth isXsdt) * entryWidth isXsdt ≤
        declared memory sdt := by
      have whole := Nat.div_mul_le_self (declared memory sdt - sdtHeaderSize) (entryWidth isXsdt)
      rw [Nat.zero_add]
      omega
    rw [entriesCount_eq enough declared_lt, findMadt_inside_iff room, Nat.zero_add]
    exact ⟨fun present => ⟨enough, present⟩, fun both => both.2⟩
  · constructor
    · -- the first entry already lies behind the end
      rintro ⟨_, _, inside⟩
      obtain ⟨fewer, count⟩ : ∃ fewer, entriesCount isXsdt (declared memory sdt) = fewer + 1 :=
        ⟨_, (Nat.succ_pred_eq_of_pos (entriesCount_pos (Nat.lt_of_not_le enough))).symm⟩
      rw [count, findMadt, number_outside (entryWidth_pos isXsdt) (by omega)] at inside
      cases inside
    · exact fun both => absurd both.1 enough

/-! ## The MADT -/

def entryType (memory : ByteMemory) (madt : UInt64) (offset : Nat) : UInt8 := memory (madt + UInt64.ofNat offset)

def entryLen (memory : ByteMemory) (madt : UInt64) (offset : Nat) : Nat :=
  (memory (madt + UInt64.ofNat (offset + 1))).toNat

/-- How far the source reads into an entry of each type. -/
def extent (entryType : UInt8) : Nat :=
  if entryType = 1 then 12 else if entryType = 2 then 10 else if entryType = 5 then 12 else 2

def absorb (memory : ByteMemory) (madt : UInt64) (offset : Nat) (found : Controllers) : Controllers :=
  if entryType memory madt offset = 1 then
    { found with
      ioapicAddr :=
        if found.ioapicAddr = 0 then UInt64.ofNat (littleEndian (stretch memory madt (offset + 4) 4))
        else found.ioapicAddr }
  else if entryType memory madt offset = 2 then found
  else if entryType memory madt offset = 5 then
    { found with lapicAddr := UInt64.ofNat (littleEndian (stretch memory madt (offset + 4) 8)) }
  else found

theorem readEntry_direct :
    readEntry (direct memory) madt offset found =
      some (entryLen memory madt offset, absorb memory madt offset found) := by
  unfold readEntry absorb
  simp only [number_direct, direct_apply, Option.bind_eq_bind, Option.bind_some]
  unfold entryType
  split_ifs <;> rfl

theorem readEntry_inside (inside : offset + extent (entryType memory madt offset) ≤ declared memory madt) :
    readEntry (within memory) madt offset found = readEntry (direct memory) madt offset found := by
  have two : 2 ≤ extent (entryType memory madt offset) := by
    unfold extent
    split_ifs <;> decide
  unfold readEntry
  rw [within_inside (by omega), within_inside (by omega)]
  simp only [direct_apply, number_direct, Option.bind_eq_bind, Option.bind_some]
  unfold extent entryType at inside
  by_cases ioapic : memory (madt + UInt64.ofNat offset) = 1
  · rw [if_pos ioapic] at inside
    rw [if_pos ioapic, if_pos ioapic, within_inside (by omega), number_inside (by omega)]
    simp only [Option.bind_some]
    rw [number_inside (by omega)]
    rfl
  · rw [if_neg ioapic] at inside
    rw [if_neg ioapic, if_neg ioapic]
    by_cases override : memory (madt + UInt64.ofNat offset) = 2
    · rw [if_pos override] at inside
      rw [if_pos override, if_pos override, within_inside (by omega)]
      simp only [Option.bind_some]
      rw [within_inside (by omega), number_inside (by omega)]
      simp only [Option.bind_some]
      rw [number_inside (by omega)]
      rfl
    · rw [if_neg override] at inside
      rw [if_neg override, if_neg override]
      by_cases lapic : memory (madt + UInt64.ofNat offset) = 5
      · rw [if_pos lapic] at inside
        rw [if_pos lapic, if_pos lapic, number_inside (by omega)]
        rfl
      · rw [if_neg lapic, if_neg lapic]

theorem readEntry_outside (outside : declared memory madt < offset + extent (entryType memory madt offset)) :
    readEntry (within memory) madt offset found = none := by
  unfold readEntry
  by_cases first : offset + 1 < declared memory madt
  · rw [within_inside (by omega), within_inside first]
    simp only [Option.bind_eq_bind, Option.bind_some]
    unfold extent entryType at outside
    -- the last field that is read is the one past the end
    split_ifs at outside with ioapic override lapic
    · rw [if_pos ioapic, number_outside (by decide) (show declared memory madt < offset + 8 + 4 by omega)]
      cases within memory madt (offset + 2) <;> cases (within memory).number madt (offset + 4) 4 <;> rfl
    · rw [if_neg ioapic, if_pos override,
        number_outside (by decide) (show declared memory madt < offset + 8 + 2 by omega)]
      cases within memory madt (offset + 2) <;> cases within memory madt (offset + 3) <;>
        cases (within memory).number madt (offset + 4) 4 <;> rfl
    · rw [if_neg ioapic, if_neg override, if_pos lapic, number_outside (by decide) (by omega)]
      rfl
    · omega
  · rw [within_outside (Nat.le_of_not_lt first)]
    cases within memory madt offset <;> rfl

inductive Reached (memory : ByteMemory) (madt : UInt64) : Nat → Prop where
  | first : Reached memory madt madtHeaderSize
  | next {offset : Nat} : Reached memory madt offset → offset < declared memory madt →
      Reached memory madt (offset + entryLen memory madt offset)

/-- The walk over the MADT ends, and never asks for a byte past the declared length. -/
structure MadtInside (memory : ByteMemory) (madt : UInt64) (walk : Nat × Controllers) : Prop where
  terminates : ∃ rounds result,
    run (madtRound (direct memory) madt (declared memory madt)) rounds walk = .finished result
  inside : ∀ rounds, run (madtRound (within memory) madt (declared memory madt)) rounds walk ≠ .failed

def Passable (memory : ByteMemory) (madt : UInt64) (offset : Nat) : Prop :=
  entryLen memory madt offset ≠ 0 ∧ offset + extent (entryType memory madt offset) ≤ declared memory madt

theorem madtRound_direct (below : offset < declared memory madt) :
    madtRound (direct memory) madt (declared memory madt) (offset, found) =
      some (.inr (offset + entryLen memory madt offset, absorb memory madt offset found)) := by
  rw [madtRound, if_pos below, readEntry_direct]
  rfl

theorem madtRound_within (below : offset < declared memory madt)
    (inside : offset + extent (entryType memory madt offset) ≤ declared memory madt) :
    madtRound (within memory) madt (declared memory madt) (offset, found) =
      some (.inr (offset + entryLen memory madt offset, absorb memory madt offset found)) := by
  rw [← madtRound_direct below, madtRound, madtRound, if_pos below, if_pos below, readEntry_inside inside]

theorem madtRound_end {access : Access} (last : declared memory madt ≤ offset) :
    madtRound access madt (declared memory madt) (offset, found) = some (.inl found) := by
  rw [madtRound, if_neg (Nat.not_lt.mpr last)]
  rfl

theorem run_stuck (below : offset < declared memory madt) (stuck : entryLen memory madt offset = 0) (rounds : Nat) :
    run (madtRound (direct memory) madt (declared memory madt)) rounds (offset, found) = .running := by
  induction rounds generalizing found with
  | zero => rfl
  | succ rounds ih =>
    rw [Base.Checked.run_next (madtRound_direct below), stuck]
    exact ih

theorem MadtInside.next (walk : MadtInside memory madt (offset, found)) (below : offset < declared memory madt) :
    Passable memory madt offset ∧
      MadtInside memory madt (offset + entryLen memory madt offset, absorb memory madt offset found) := by
  obtain ⟨⟨rounds, result, finished⟩, inside⟩ := walk
  have enough : offset + extent (entryType memory madt offset) ≤ declared memory madt := by
    apply Nat.le_of_not_lt
    intro outside
    apply inside 1
    rw [run, madtRound, if_pos below, readEntry_outside outside]
    rfl
  refine ⟨⟨?_, enough⟩, ?_, ?_⟩
  -- an entry of length zero would keep the walk where it is
  · intro stuck
    rw [run_stuck below stuck] at finished
    cases finished
  · cases rounds with
    | zero => cases finished
    | succ rounds =>
      rw [Base.Checked.run_next (madtRound_direct below)] at finished
      exact ⟨rounds, result, finished⟩
  · intro rounds failed
    apply inside (rounds + 1)
    rw [Base.Checked.run_next (madtRound_within below enough), failed]

theorem MadtInside.reached (walk : MadtInside memory madt (madtHeaderSize, found))
    (reached : Reached memory madt offset) :
    ∃ found, MadtInside memory madt (offset, found) := by
  induction reached with
  | first => exact ⟨found, walk⟩
  | next _ below ih =>
    obtain ⟨found, here⟩ := ih
    exact ⟨_, (here.next below).2⟩

/-- Every round of a walk over passable entries brings it nearer to the end. -/
theorem madtInside_of_passable {walk : Nat × Controllers}
    (passable : ∀ offset, Reached memory madt offset → offset < declared memory madt → Passable memory madt offset)
    (reached : Reached memory madt walk.1) : MadtInside memory madt walk := by
  constructor
  -- the bytes left of the table decrease, for no length is zero
  · have step : ∀ walk : Nat × Controllers, Reached memory madt walk.1 →
        (∃ result, madtRound (direct memory) madt (declared memory madt) walk = some (.inl result) ∧ True) ∨
        ∃ next, madtRound (direct memory) madt (declared memory madt) walk = some (.inr next) ∧
          Reached memory madt next.1 ∧ declared memory madt - next.1 < declared memory madt - walk.1 := by
      rintro ⟨offset, found⟩ here
      by_cases below : offset < declared memory madt
      · refine Or.inr ⟨_, madtRound_direct below, here.next below, ?_⟩
        have moved := (passable offset here below).1
        dsimp only
        omega
      · exact Or.inl ⟨found, madtRound_end (Nat.le_of_not_lt below), trivial⟩
    obtain ⟨result, _, ends⟩ := Base.Checked.run_finishes (fun walk : Nat × Controllers => Reached memory madt walk.1)
      (fun _ => True) (fun walk => declared memory madt - walk.1) step reached
    exact ⟨_, result, ends _ (Nat.lt_succ_self _)⟩
  · apply Base.Checked.run_ne_failed (fun walk : Nat × Controllers => Reached memory madt walk.1) _ reached
    rintro ⟨offset, found⟩ here
    by_cases below : offset < declared memory madt
    · exact Or.inr ⟨_, madtRound_within below (passable offset here below).2, here.next below⟩
    · exact Or.inl ⟨found, madtRound_end (Nat.le_of_not_lt below)⟩

theorem madtInside_iff :
    MadtInside memory madt (madtHeaderSize, found) ↔
      ∀ offset, Reached memory madt offset → offset < declared memory madt → Passable memory madt offset := by
  constructor
  · intro walk offset reached below
    obtain ⟨_, here⟩ := walk.reached reached
    exact (here.next below).1
  · exact fun passable => madtInside_of_passable passable .first

def holding (base : UInt64) (bytes : List UInt8) : ByteMemory := fun addr => bytes.getD (addr - base).toNat 0

/-- A MADT of 46 bytes: the header and one entry of type 0, with a length of zero. -/
def stuckMadt : List UInt8 :=
  apicSignature ++ [46, 0, 0, 0] ++ List.replicate 28 0 ++ [0, 0, 0xE0, 0xFE] ++ [1, 0, 0, 0] ++ [0, 0]

end ElseOS.Acpi
