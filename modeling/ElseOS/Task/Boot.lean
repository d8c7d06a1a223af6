import ElseOS.Memory.Address
import ElseOS.Task.Scheduler

/-! What `_start` leaves behind for the scheduler: the `init` process with the
hardware capabilities placed in its space. -/

set_option autoImplicit false

namespace ElseOS

structure FramebufferInfo where
  physicalAddress : UInt64
  width : UInt64
  height : UInt64
  pitch : UInt64
  bpp : UInt16
  size : UInt64
  deriving DecidableEq, Repr

/-- The fields of a scanned device that boot reads. -/
structure PciDevice where
  bar0Base : UInt32
  bar0Size : UInt32
  bar0IsIo : Bool
  irqLine : UInt8
  deriving DecidableEq, Repr

def PciDevice.bar0Cap (nic : PciDevice) : Capability :=
  if nic.bar0IsIo then .portIo nic.bar0Base.toUInt16 nic.bar0Size.toUInt16 0
  else .memoryMap nic.bar0Base.toUInt64 nic.bar0Size.toUInt64

theorem PciDevice.bar0Cap_hardware (nic : PciDevice) : nic.bar0Cap.isHardware = true := by
  unfold bar0Cap
  split <;> rfl

structure BootInfo where
  framebuffer : Option FramebufferInfo
  nic : Option PciDevice
  dmaPoolPhys : UInt64
  deriving DecidableEq, Repr

namespace BootInfo

/-- The hardware capabilities granted to `init`, with their handles, in source order. -/
def grants (info : BootInfo) : List (Nat × Capability) :=
  [(1, .interrupt 1), (2, .portIo 0x60 5 1)] ++
  (match info.framebuffer with
    | some fb => [(3, .memoryMap fb.physicalAddress fb.size)]
    | none => []) ++
  [(4, .interrupt 14), (5, .portIo 0x1F0 8 0), (6, .portIo 0x3F6 1 1)] ++
  (match info.nic with
    | some nic =>
      [(20, .interrupt nic.irqLine),
        (21, nic.bar0Cap),
        (22, .memoryMap info.dmaPoolPhys 65536)]
    | none => [])

def cspace (info : BootInfo) (empty : CSpace) : CSpace :=
  info.grants.foldl (fun cspace grant => cspace.insertAt grant.1 grant.2) empty

theorem holds_foldl_insertAt {grants : List (Nat × Capability)} {cspace : CSpace} {cap : Capability}
    (holds : (grants.foldl (fun cspace grant => cspace.insertAt grant.1 grant.2) cspace).Holds cap) :
    cspace.Holds cap ∨ ∃ handle, (handle, cap) ∈ grants := by
  induction grants generalizing cspace with
  | nil => exact .inl holds
  | cons grant grants ih =>
    rcases ih holds with earlier | ⟨handle, member⟩
    · rcases CSpace.holds_insertAt earlier with same | old
      · exact .inr ⟨grant.1, by simp [same]⟩
      · exact .inl old
    · exact .inr ⟨handle, List.mem_cons_of_mem grant member⟩

theorem holds_cspace {info : BootInfo} {cap : Capability} (holds : (info.cspace .new).Holds cap) :
    ∃ handle, (handle, cap) ∈ info.grants := by
  rcases holds_foldl_insertAt holds with none | granted
  · exact absurd none (CSpace.not_holds_new cap)
  · exact granted

theorem grants_hardware {info : BootInfo} {handle : Nat} {cap : Capability}
    (granted : (handle, cap) ∈ info.grants) : cap.isHardware = true := by
  have all : info.grants.all (fun grant => grant.2.isHardware) = true := by
    unfold grants
    cases info.framebuffer <;> cases info.nic <;> simp only [List.all_append, List.all_cons, List.all_nil,
      PciDevice.bar0Cap_hardware] <;> rfl
  exact List.all_eq_true.mp all _ granted

end BootInfo

structure InitImage where
  entryPoint : UInt64
  cr3 : UInt64
  stackBase : UInt64
  deriving DecidableEq, Repr

namespace Kernel

/-- The state in which `_start` enables interrupts and begins to yield. -/
def booted (bootCr3 : UInt64) (info : BootInfo) (image : InitImage) : Kernel :=
  let (k, _, cs) := (new bootCr3).spawnProcess none image.entryPoint userStackTop image.cr3 image.stackBase
  k.setCSpace cs (info.cspace (k.cspaces cs))

theorem holds_booted {bootCr3 : UInt64} {info : BootInfo} {image : InitImage} {cs : CSpaceRef} {cap : Capability}
    (holds : ((booted bootCr3 info image).cspaces cs).Holds cap) :
    cs = 0 ∧ ∃ handle, (handle, cap) ∈ info.grants := by
  by_cases first : cs = 0
  · subst first
    exact ⟨rfl, BootInfo.holds_cspace holds⟩
  · have empty : (booted bootCr3 info image).cspaces cs = CSpace.new := by
      simp [booted, spawnProcess, newUserThread, setCSpace, setProcess, pushBack, emit, new, first]
    rw [empty] at holds
    exact absurd holds (CSpace.not_holds_new cap)

end Kernel

end ElseOS
