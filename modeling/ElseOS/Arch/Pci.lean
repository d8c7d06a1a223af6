import ElseOS.Base.Bytes
import ElseOS.Syscall.Routing

/-! The scan of the PCI bus, register by register.

The configuration space is read and written through an address and a data port. To find the
size of the first base address register the scan writes all ones to it and then puts the old
value back. -/

set_option autoImplicit false

namespace ElseOS.Pci

structure Place where
  bus : UInt8
  slot : UInt8
  func : UInt8
  register : Fin 64
  deriving DecidableEq, Repr

/-- The address that `pci_config_read_dword` and `pci_config_write_dword` put together. -/
def configAddress (bus slot func offset : UInt8) : UInt32 :=
  (0x80000000 : UInt32) ||| (bus.toUInt32 <<< 16) ||| (slot.toUInt32 <<< 11) ||| (func.toUInt32 <<< 8) |||
  (offset.toUInt32 &&& 0xFC)

def select (address : UInt32) : Option Place :=
  if address &&& 0x80000000 ≠ 0 then
    some ⟨(address >>> 16).toUInt8, ((address >>> 11) &&& 0x1F).toUInt8, ((address >>> 8) &&& 0x07).toUInt8,
      Fin.ofNat 64 (address >>> 2).toNat⟩
  else none

/-- The functions of the bus: how a write to a register ends is up to the function, but that
the first base address register keeps the bits it does not implement. -/
structure Hardware where
  accepts : Place → UInt32 → UInt32 → UInt32
  /-- The bits of a base address register that can be written. -/
  mask : Place → UInt32
  bar0 : ∀ place, place.register = 4 → ∀ old value,
  accepts place old value = (old &&& ~~~mask place) ||| (value &&& mask place)

/-- What the address port holds, and the dwords. Those of a function that is not there are all ones. -/
structure Bus where
  address : UInt32
  cells : Place → UInt32

def Bus.data (config : Bus) : UInt32 :=
  match select config.address with
  | some place => config.cells place
  | none => 0xFFFFFFFF

variable (hardware : Hardware)

def Bus.setData (config : Bus) (value : UInt32) : Bus :=
  match select config.address with
  | some place =>
    { config with cells := Function.update config.cells place (hardware.accepts place (config.cells place) value) }
  | none => config

def pciConfigReadDword (config : Bus) (bus slot func offset : UInt8) : UInt32 × Bus :=
  let config := { config with address := configAddress bus slot func offset }
  (config.data, config)

def pciConfigWriteDword (config : Bus) (bus slot func offset : UInt8) (value : UInt32) : Bus :=
  { config with address := configAddress bus slot func offset }.setData hardware value

/-- The first base address register, and what it holds after all ones were written to it. -/
def sizeBar0 (config : Bus) (slot : UInt8) : UInt32 × UInt32 × Bus :=
  let (bar0, config) := pciConfigReadDword config 0 slot 0 0x10
  let config := pciConfigWriteDword hardware config 0 slot 0 0x10 0xFFFFFFFF
  let (bar0SizeRaw, config) := pciConfigReadDword config 0 slot 0 0x10
  let config := pciConfigWriteDword hardware config 0 slot 0 0x10 bar0
  (bar0, bar0SizeRaw, config)

def setUp (config : Bus) (slot : UInt8) : PciDevice × Bus :=
  let (bar0, bar0SizeRaw, config) := sizeBar0 hardware config slot
  let (intr, config) := pciConfigReadDword config 0 slot 0 0x3C
  let irqLine := (intr &&& 0xFF).toUInt8
  let (commandReg, config) := pciConfigReadDword config 0 slot 0 0x04
  let config := pciConfigWriteDword hardware config 0 slot 0 0x04 (commandReg ||| 0x0007)
  if bar0 &&& 1 = 1 then (⟨bar0 &&& ~~~0x3, ~~~(bar0SizeRaw &&& ~~~0x3) + 1, true, irqLine⟩, config)
  else (⟨bar0 &&& ~~~0xF, ~~~(bar0SizeRaw &&& ~~~0xF) + 1, false, irqLine⟩, config)

def scanSlots (config : Bus) : List UInt8 → Option PciDevice × Bus
  | [] => (none, config)
  | slot :: slots =>
    let (id, config) := pciConfigReadDword config 0 slot 0 0
    if id &&& 0xFFFF = 0xFFFF then scanSlots config slots
    else
      let (again, config) := pciConfigReadDword config 0 slot 0 0
      if id &&& 0xFFFF = 0x10EC ∧ (again >>> 16) &&& 0xFFFF = 0x8139 then
        let (nic, config) := setUp hardware config slot
        (some nic, config)
      else scanSlots config slots

def scanBusZero (config : Bus) : Option PciDevice × Bus :=
  scanSlots hardware config ((List.finRange 32).map fun slot => UInt8.ofNat slot.val)

/-! ## Addresses -/

def place (slot : Fin 32) (register : Fin 64) : Place := ⟨0, UInt8.ofNat slot, 0, register⟩

theorem select_configAddress : ∀ slot : Fin 32,
    select (configAddress 0 (UInt8.ofNat slot) 0 0) = some (place slot 0) ∧
    select (configAddress 0 (UInt8.ofNat slot) 0 0x04) = some (place slot 1) ∧
    select (configAddress 0 (UInt8.ofNat slot) 0 0x10) = some (place slot 4) ∧
    select (configAddress 0 (UInt8.ofNat slot) 0 0x3C) = some (place slot 15) := by
  decide +kernel

variable {hardware} {config : Bus} {bus slot func offset : UInt8} {place' : Place}

theorem read_place (selected : select (configAddress bus slot func offset) = some place') (config : Bus) :
    (pciConfigReadDword config bus slot func offset).1 = config.cells place' := by
  simp only [pciConfigReadDword, Bus.data, selected]

theorem cells_read : (pciConfigReadDword config bus slot func offset).2.cells = config.cells := rfl

theorem cells_write (selected : select (configAddress bus slot func offset) = some place') (config : Bus)
    (value : UInt32) :
    (pciConfigWriteDword hardware config bus slot func offset value).cells =
      Function.update config.cells place' (hardware.accepts place' (config.cells place') value) := by
  simp only [pciConfigWriteDword, Bus.setData, selected]

/-! ## The card -/

def slotOf (hardware : Hardware) (cells : Place → UInt32) (slot : Fin 32) : PciSlot where
  id := cells (place slot 0)
  bar0 := cells (place slot 4)
  bar0Sized := hardware.accepts (place slot 4) (cells (place slot 4)) 0xFFFFFFFF
  interrupt := cells (place slot 15)

/-- All ones and then the old value: a register with a mask is as before. -/
theorem restored (old mask : UInt32) :
    ((((old &&& ~~~mask) ||| (0xFFFFFFFF &&& mask)) &&& ~~~mask) ||| (old &&& mask)) = old := by
  apply UInt32.toBitVec_inj.mp
  simp only [UInt32.toBitVec_or, UInt32.toBitVec_and, UInt32.toBitVec_not]
  apply BitVec.eq_of_getLsbD_eq
  intro i inside
  simp only [BitVec.getLsbD_or, BitVec.getLsbD_and, BitVec.getLsbD_not, inside]
  cases old.toBitVec.getLsbD i <;> cases mask.toBitVec.getLsbD i <;> simp

theorem sizeBar0_spec (config : Bus) (slot : Fin 32) :
    ∃ after : Bus, after.cells = config.cells ∧ sizeBar0 hardware config (UInt8.ofNat slot) =
      ((slotOf hardware config.cells slot).bar0, (slotOf hardware config.cells slot).bar0Sized, after) := by
  obtain ⟨_, _, bar, _⟩ := select_configAddress slot
  refine ⟨_, ?_, Prod.ext (read_place bar config) (Prod.ext ?_ rfl)⟩
  · simp only [sizeBar0, read_place bar, cells_write bar, cells_read, Function.update_self, Function.update_idem]
    rw [hardware.bar0 _ rfl, hardware.bar0 _ rfl, restored, Function.update_eq_self]
  · simp only [sizeBar0, read_place bar, cells_write bar, cells_read, Function.update_self, slotOf]

def enabled (hardware : Hardware) (cells : Place → UInt32) (slot : Fin 32) : Place → UInt32 :=
  Function.update cells (place slot 1)
    (hardware.accepts (place slot 1) (cells (place slot 1)) (cells (place slot 1) ||| 7))

theorem setUp_spec (config : Bus) {slot : Fin 32} (vendor : (slotOf hardware config.cells slot).id &&& 0xFFFF = 0x10EC)
    (device : ((slotOf hardware config.cells slot).id >>> 16) &&& 0xFFFF = 0x8139) :
    some (setUp hardware config (UInt8.ofNat slot)).1 = (slotOf hardware config.cells slot).scan ∧
    (setUp hardware config (UInt8.ofNat slot)).2.cells = enabled hardware config.cells slot := by
  obtain ⟨sized, same, isSized⟩ := @sizeBar0_spec hardware config slot
  obtain ⟨_, command, _, line⟩ := select_configAddress slot
  have interrupt : (slotOf hardware config.cells slot).interrupt = config.cells (place slot 15) := rfl
  have known : ¬ ((0x10EC : UInt32) = 0xFFFF) := by decide
  constructor
  · simp only [setUp, PciSlot.scan, isSized, read_place line, same, interrupt, vendor, device, known,
      if_false, and_self, if_true]
    split <;> rfl
  · simp only [setUp, isSized]
    rw [apply_ite Prod.snd, ite_self, cells_write command, read_place command, cells_read, cells_read, same]
    rfl

/-! ## The scan -/

theorem scanSlots_spec (slots : List (Fin 32)) (config : Bus) :
    (scanSlots hardware config (slots.map fun slot => UInt8.ofNat slot.val)).1 =
      slots.findSome? (fun slot => (slotOf hardware config.cells slot).scan) ∧
    (scanSlots hardware config (slots.map fun slot => UInt8.ofNat slot.val)).2.cells =
      match slots.find? (fun slot => (slotOf hardware config.cells slot).scan.isSome) with
      | some slot => enabled hardware config.cells slot
      | none => config.cells := by
  induction slots generalizing config with
  | nil => exact ⟨rfl, rfl⟩
  | cons slot slots ih =>
    have read := read_place (select_configAddress slot).1
    have isId : (slotOf hardware config.cells slot).id = config.cells (place slot 0) := rfl
    rw [List.map_cons, scanSlots, List.findSome?_cons, List.find?_cons]
    dsimp only
    rw [read, read, cells_read]
    have skipped (config' : Bus) (same : config'.cells = config.cells) := same ▸ ih config'
    by_cases absent : config.cells (place slot 0) &&& 0xFFFF = 0xFFFF
    · have nothing : (slotOf hardware config.cells slot).scan = none := by simp [PciSlot.scan, isId, absent]
      rw [if_pos absent, nothing]
      exact skipped _ cells_read
    · rw [if_neg absent]
      by_cases card : config.cells (place slot 0) &&& 0xFFFF = 0x10EC ∧
        (config.cells (place slot 0) >>> 16) &&& 0xFFFF = 0x8139
      · obtain ⟨found, cells⟩ := @setUp_spec hardware
          (pciConfigReadDword (pciConfigReadDword config 0 (UInt8.ofNat slot.val) 0 0).2 0 (UInt8.ofNat slot.val) 0 0).2
          slot card.1 card.2
        rw [cells_read, cells_read] at found cells
        rw [if_pos card, ← found]
        exact ⟨rfl, cells⟩
      · have nothing : (slotOf hardware config.cells slot).scan = none := by
          simp only [PciSlot.scan, isId]
          rw [if_neg absent, if_neg card]
        rw [if_neg card, nothing]
        exact skipped _ rfl

/-- The scan returns the first card it would find looking at the slots one by one, and changes nothing in the
configuration space but the command register of that card: the base address register that it sized is as before. -/
theorem scan_refines (config : Bus) :
    (scanBusZero hardware config).1 = ElseOS.scanBusZero (slotOf hardware config.cells) ∧
    ∀ place', (scanBusZero hardware config).2.cells place' =
      match (List.finRange 32).find? (fun slot => (slotOf hardware config.cells slot).scan.isSome) with
      | some slot =>
        if place' = place slot 1 then
          hardware.accepts (place slot 1) (config.cells (place slot 1)) (config.cells (place slot 1) ||| 7)
        else config.cells place'
      | none => config.cells place' := by
  obtain ⟨found, cells⟩ := @scanSlots_spec hardware (List.finRange 32) config
  refine ⟨found, fun place' => ?_⟩
  rw [scanBusZero, cells]
  split
  · rw [enabled, Function.update_apply]
  · rfl

/-! ## The ports of the card -/

/-- A base address register for $2^k$ ports. It holds the bits of the port number from `k` on, up to bit 15 or up to
bit 31, and in the others that it is for ports. -/
structure HasPorts (bar mask : UInt32) (k : Nat) : Prop where
  least : 2 ≤ k
  most : k ≤ 15
  decodes : mask = UInt32.ofNat (2 ^ 32 - 2 ^ k) ∨ mask = UInt32.ofNat (2 ^ 16 - 2 ^ k)
  fixed : bar &&& ~~~mask = 1
  low : bar.toNat < 2 ^ 16

namespace HasPorts

variable {bar mask : UInt32} {k : Nat}

theorem size (ports : HasPorts bar mask k) :
    (~~~(((bar &&& ~~~mask) ||| (0xFFFFFFFF &&& mask)) &&& ~~~0x3) + 1).toUInt16.toNat = 2 ^ k := by
  rw [ports.fixed]
  obtain ⟨least, most, decodes, _, _⟩ := ports
  rcases decodes with rfl | rfl <;> interval_cases k <;> rfl

theorem rest (ports : HasPorts bar mask k) : bar.toNat % 2 ^ k = 1 := by
  have inside : ~~~mask &&& UInt32.ofNat (2 ^ k - 1) = UInt32.ofNat (2 ^ k - 1) ∧
      (1 : UInt32) &&& UInt32.ofNat (2 ^ k - 1) = 1 ∧ (UInt32.ofNat (2 ^ k - 1)).toNat = 2 ^ k - 1 := by
    obtain ⟨least, most, decodes, _, _⟩ := ports
    rcases decodes with rfl | rfl <;> interval_cases k <;> decide
  have bits : bar &&& UInt32.ofNat (2 ^ k - 1) = 1 := by
    rw [← inside.1, ← UInt32.and_assoc, ports.fixed, inside.2.1]
  have number := congrArg UInt32.toNat bits
  rwa [UInt32.toNat_and, inside.2.2, Nat.and_two_pow_sub_one_eq_mod] at number

theorem base (ports : HasPorts bar mask k) :
    bar &&& 1 = 1 ∧ (bar &&& ~~~0x3).toUInt16.toNat = bar.toNat / 2 ^ k * 2 ^ k := by
  have rest := ports.rest
  have low := ports.low
  have whole := Nat.div_add_mod bar.toNat (2 ^ k)
  rw [rest, Nat.mul_comm] at whole
  have even : bar.toNat % 4 = 1 := by
    have four : 4 ∣ 2 ^ k := Nat.pow_dvd_pow 2 ports.least
    rw [← Nat.mod_mod_of_dvd _ four, rest]
  constructor
  · apply UInt32.toNat_inj.mp
    rw [UInt32.toNat_and]
    show bar.toNat &&& (2 ^ 1 - 1) = 1
    rw [Nat.and_two_pow_sub_one_eq_mod]
    omega
  · rw [UInt32.toNat_toUInt16, UInt32.toNat_and]
    show (bar.toNat &&& (2 ^ 30 - 1) * 2 ^ 2) % 2 ^ 16 = _
    rw [Base.Bytes.and_mask (by omega)]
    omega

end HasPorts

theorem scan_ports {slot : PciSlot} {nic : PciDevice} (found : slot.scan = some nic) (forPorts : slot.bar0 &&& 1 = 1) :
    ∃ line, nic = ⟨slot.bar0 &&& ~~~0x3, ~~~(slot.bar0Sized &&& ~~~0x3) + 1, true, line⟩ := by
  simp only [PciSlot.scan, forPorts, if_true] at found
  split_ifs at found
  exact ⟨_, (Option.some.inj found).symm⟩

/-- If the cards on the bus have ports, an access with the capability that boot grants for the one found is allowed
exactly if all its bytes are ports of that card. -/
theorem nic_ports_exact (config : Bus) {nic : PciDevice} {k : Fin 32 → Nat}
    (found : (scanBusZero hardware config).1 = some nic)
    (ports : ∀ slot, (slotOf hardware config.cells slot).scan.isSome = true →
      HasPorts (config.cells (place slot 4)) (hardware.mask (place slot 4)) (k slot)) :
    ∃ slot, (slotOf hardware config.cells slot).scan = some nic ∧ ∀ (port : UInt16) (size : UInt8), 0 < size.toNat →
      (Machine.portAllowed (some nic.bar0Cap) port size = true ↔
        ∀ i < size.toNat, (port.toNat + i) / 2 ^ k slot = (config.cells (place slot 4)).toNat / 2 ^ k slot) := by
  obtain ⟨slot, _, scanned⟩ := List.exists_of_findSome?_eq_some ((scanSlots_spec _ config).1.symm.trans found)
  refine ⟨slot, scanned, fun port size some => ?_⟩
  have ports := ports slot (by rw [scanned]; rfl)
  obtain ⟨line, rfl⟩ := scan_ports scanned ports.base.1
  have start := ports.base.2
  have length := ports.size
  rw [← hardware.bar0 _ rfl] at length
  have positive : 0 < 2 ^ k slot := Nat.two_pow_pos _
  have small := port.toNat_lt
  have short := size.toNat_lt
  have bound := (config.cells (place slot 4) &&& ~~~0x3).toUInt16.toNat_lt
  have room : 2 ^ k slot < 2 ^ 16 := Nat.pow_lt_pow_right (by decide) (by have := ports.most; omega)
  simp only [slotOf, PciDevice.bar0Cap, if_true, Machine.portAllowed, decide_true, Bool.true_or, Bool.and_true,
    Bool.and_eq_true, decide_eq_true_eq, UInt16.le_iff_toNat_le, UInt32.le_iff_toNat_le, UInt32.toNat_add,
    UInt16.toNat_toUInt32, UInt8.toNat_toUInt32, length, start]
  rw [start] at bound
  rw [Nat.mod_eq_of_lt (by omega), Nat.mod_eq_of_lt (by omega)]
  constructor
  · rintro ⟨first, last⟩ i inside
    rw [Nat.div_eq_iff positive]
    omega
  · intro inside
    have first := (Nat.div_eq_iff positive).mp (inside 0 some)
    have last := (Nat.div_eq_iff positive).mp (inside (size.toNat - 1) (by omega))
    omega

def sampleHardware : Hardware where
  accepts place old value := if place.register = 4 then (old &&& ~~~0xFFFFFF00) ||| (value &&& 0xFFFFFF00) else value
  mask _ := 0xFFFFFF00
  bar0 := by
    intro place isBar old value
    rw [if_pos isBar]

/-- A card in slot 3, with 256 ports from 0xC000 on. -/
def sampleBus : Bus where
  address := 0
  cells place' :=
    if place'.slot ≠ 3 then 0xFFFFFFFF
    else if place'.register = 0 then 0x813910EC
    else if place'.register = 4 then 0xC001
    else 11

theorem nic_ports_exact_sample : ∃ slot nic, (slotOf sampleHardware sampleBus.cells slot).scan = some nic ∧
    ∀ (port : UInt16) (size : UInt8), 0 < size.toNat → (Machine.portAllowed (some nic.bar0Cap) port size = true ↔
      ∀ i < size.toNat, (port.toNat + i) / 2 ^ 8 = (sampleBus.cells (place slot 4)).toNat / 2 ^ 8) := by
  have found : (scanBusZero sampleHardware sampleBus).1 = some ⟨0xC000, 0x100, true, 11⟩ := by decide +kernel
  have only : ∀ slot, (slotOf sampleHardware sampleBus.cells slot).scan.isSome = true → slot = 3 := by decide +kernel
  obtain ⟨slot, scanned, exact'⟩ := nic_ports_exact (k := fun _ => 8) sampleBus found fun slot card => by
    rw [only slot card]
    exact ⟨by decide, by decide, .inl rfl, by decide, by decide⟩
  exact ⟨slot, _, scanned, exact'⟩

end ElseOS.Pci
