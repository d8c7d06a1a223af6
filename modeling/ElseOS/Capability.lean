import ElseOS.Base.Slots

/-! Capabilities and the capability space of a process.

Shared kernel objects (endpoints, process states, capability spaces) are reached
through reference-counted pointers in the source. They are named by numbers here:
two pointers to one object are the same number.
-/

set_option autoImplicit false

namespace ElseOS

abbrev EndpointRef := Nat
abbrev ProcessRef := Nat
abbrev CSpaceRef := Nat

structure Rights where
  bits : UInt32
  deriving DecidableEq, Repr

namespace Rights

def NONE : Rights := ⟨0⟩
def SEND : Rights := ⟨(1 : UInt32) <<< 0⟩
def RECEIVE : Rights := ⟨(1 : UInt32) <<< 1⟩
def WAIT : Rights := ⟨(1 : UInt32) <<< 2⟩
def ALL : Rights := ⟨SEND.bits ||| RECEIVE.bits ||| WAIT.bits⟩

def contains (rights other : Rights) : Bool := rights.bits &&& other.bits == other.bits

end Rights

inductive Capability where
  | endpoint (ep : EndpointRef) (rights : Rights)
  | process (state : ProcessRef) (rights : Rights)
  | interrupt (irq : UInt8)
  /-- First port, number of ports, and the one access width allowed (0 for any). -/
  | portIo (start len : UInt16) (allowedWidth : UInt8)
  | memoryMap (start len : UInt64)
  deriving DecidableEq, Repr

/-- Interrupts, ports and memory, as opposed to kernel objects. -/
def Capability.isHardware : Capability → Bool
  | .interrupt _ | .portIo _ _ _ | .memoryMap _ _ => true
  | .endpoint _ _ | .process _ _ => false

inductive CapError where
  | invalidHandle | permissionDenied | wrongType
  deriving DecidableEq, Repr

structure CSpace where
  slots : Base.Slots Capability
  deriving DecidableEq, Repr

namespace CSpace

def new : CSpace := ⟨[]⟩

def insert (cspace : CSpace) (cap : Capability) : CSpace × Nat :=
  let (slots, handle) := Base.Slots.insert cspace.slots cap
  (⟨slots⟩, handle)

def insertAt (cspace : CSpace) (index : Nat) (cap : Capability) : CSpace :=
  ⟨Base.Slots.insertAt cspace.slots index cap⟩

def get (cspace : CSpace) (handle : Nat) : Option Capability := Base.Slots.get cspace.slots handle

def remove (cspace : CSpace) (handle : Nat) : CSpace × Option Capability :=
  let (slots, held) := Base.Slots.remove cspace.slots handle
  (⟨slots⟩, held)

def firstFree (cspace : CSpace) : Nat := Base.Slots.firstFree cspace.slots

def Holds (cspace : CSpace) (cap : Capability) : Prop := ∃ handle, cspace.get handle = some cap

theorem not_holds_new (cap : Capability) : ¬ new.Holds cap := by
  rintro ⟨handle, found⟩
  cases found

theorem get_insert (cspace : CSpace) (cap : Capability) (handle : Nat) :
    (cspace.insert cap).1.get handle =
      if handle = (cspace.insert cap).2 then some cap else cspace.get handle :=
  Base.Slots.get_insert cspace.slots cap handle

theorem get_insertAt (cspace : CSpace) (index handle : Nat) (cap : Capability) :
    (cspace.insertAt index cap).get handle = if handle = index then some cap else cspace.get handle :=
  Base.Slots.get_insertAt cspace.slots index handle cap

theorem holds_insert {cspace : CSpace} {cap held : Capability}
    (holds : (cspace.insert cap).1.Holds held) : held = cap ∨ cspace.Holds held := by
  obtain ⟨handle, found⟩ := holds
  rcases Base.Slots.get_insert_cases found with same | old
  · exact .inl same
  · exact .inr ⟨handle, old⟩

theorem holds_insertAt {cspace : CSpace} {index : Nat} {cap held : Capability}
    (holds : (cspace.insertAt index cap).Holds held) : held = cap ∨ cspace.Holds held := by
  obtain ⟨handle, found⟩ := holds
  rcases Base.Slots.get_insertAt_cases found with same | old
  · exact .inl same
  · exact .inr ⟨handle, old⟩

theorem get_insert_fresh (cspace : CSpace) (cap : Capability) :
    cspace.get (cspace.insert cap).2 = none :=
  Base.Slots.get_insert_fresh cspace.slots cap

theorem insert_handle (cspace : CSpace) (cap : Capability) : (cspace.insert cap).2 = cspace.firstFree :=
  Base.Slots.insert_index cspace.slots cap

theorem insert_ne (cspace : CSpace) (cap : Capability) : (cspace.insert cap).1 ≠ cspace := by
  intro same
  have stored := cspace.get_insert cap (cspace.insert cap).2
  rw [if_pos rfl, same, get_insert_fresh] at stored
  cases stored

/-- The copy loop of a spawn: every occupied slot, at its own index. -/
def cloneInto (target : CSpace) (index : Nat) : Base.Slots Capability → CSpace
  | [] => target
  | some cap :: rest => cloneInto (target.insertAt index cap) (index + 1) rest
  | none :: rest => cloneInto target (index + 1) rest

theorem get_cloneInto (target : CSpace) (index : Nat) (slots : Base.Slots Capability) (handle : Nat) :
    (cloneInto target index slots).get handle =
      if index ≤ handle then (Base.Slots.get slots (handle - index)).or (target.get handle)
      else target.get handle := by
  induction slots generalizing target index with
  | nil => simp [cloneInto]
  | cons held rest ih =>
    rcases Nat.lt_trichotomy handle index with before | here | after
    · cases held with
      | none => simp [cloneInto, ih, show ¬ index ≤ handle by omega, show ¬ index + 1 ≤ handle by omega]
      | some cap =>
        simp [cloneInto, ih, get_insertAt, show ¬ index ≤ handle by omega,
          show ¬ index + 1 ≤ handle by omega, show handle ≠ index by omega]
    · subst here
      cases held with
      | none => simp [cloneInto, ih, show ¬ handle + 1 ≤ handle by omega]
      | some cap => simp [cloneInto, ih, get_insertAt, show ¬ handle + 1 ≤ handle by omega]
    · obtain ⟨offset, same⟩ : ∃ offset, handle - index = offset + 1 := ⟨handle - index - 1, by omega⟩
      have shift : handle - (index + 1) = offset := by omega
      cases held with
      | none => simp [cloneInto, ih, same, shift, show index ≤ handle by omega, show index + 1 ≤ handle by omega]
      | some cap =>
        simp [cloneInto, ih, get_insertAt, same, shift, show index ≤ handle by omega,
          show index + 1 ≤ handle by omega, show handle ≠ index by omega]

theorem holds_cloneInto {target : CSpace} {slots : Base.Slots Capability} {cap : Capability}
    (holds : (cloneInto target 0 slots).Holds cap) : target.Holds cap ∨ (CSpace.mk slots).Holds cap := by
  obtain ⟨handle, found⟩ := holds
  rw [get_cloneInto, if_pos (Nat.zero_le _), Option.or_eq_some_iff] at found
  rcases found with cloned | ⟨_, old⟩
  · exact .inr ⟨handle, cloned⟩
  · exact .inl ⟨handle, old⟩

end CSpace

end ElseOS
