import ElseOS.Base.Buffer
import ElseOS.Services.Storage
import ElseOS.Task.IrqLine

/-! The ATA service with its disk.

The disk is its registers, a medium of sectors and the command it works on. A piece of work
takes as many port accesses as the next delay says, or ends while the service sleeps; until
then the status shows `BSY`. The interrupt line rises when a sector can be read or has been
stored, and falls with a status read or a new command. -/

set_option autoImplicit false

namespace ElseOS.Ata

open Storage (msgBlockRead msgBlockWrite msgBlockFlush)

/-! ## The disk -/

abbrev Sector := Base.Buffer 256 UInt16

/-- What the disk does about its last command. `left` counts the sectors of the command that
are not transferred yet, the one at `lba` included. -/
inductive Phase where
  | idle
  | fetching (lba : UInt32) (left : Nat)
  | sending (lba : UInt32) (left : Nat) (words : List UInt16)
  | preparing (lba : UInt32) (left : Nat)
  | taking (lba : UInt32) (left : Nat) (words : List UInt16)
  | storing (lba : UInt32) (left : Nat) (words : List UInt16)
  | flushing
  deriving DecidableEq, Repr

namespace Phase

def working : Phase → Bool
  | .fetching _ _ | .preparing _ _ | .storing _ _ _ | .flushing => true
  | _ => false

/-- `DRQ`: the data port is open. -/
def transfers : Phase → Bool
  | .sending _ _ _ | .taking _ _ _ => true
  | _ => false

end Phase

structure Disk where
  sectorCount : UInt8
  lbaLow : UInt8
  lbaMid : UInt8
  lbaHigh : UInt8
  drive : UInt8
  phase : Phase
  /-- Port accesses until the work under way is done. -/
  busy : Nat
  /-- How long the pieces of work to come take. -/
  delays : Nat → Nat
  intrq : Bool
  medium : UInt32 → Sector

namespace Disk

def status (disk : Disk) : UInt8 :=
  if disk.phase.working then 0x80 else if disk.phase.transfers then 0x48 else 0x40

/-- The 28 bits of a block address; the registers hold a cylinder and a head without the `LBA` bit. -/
def lba (disk : Disk) : Option UInt32 :=
  if disk.drive &&& 0x40 ≠ 0 then
    some ((disk.drive &&& 0x0F).toUInt32 <<< 24 ||| disk.lbaHigh.toUInt32 <<< 16 ||| disk.lbaMid.toUInt32 <<< 8 |||
      disk.lbaLow.toUInt32)
  else none

def sectors (disk : Disk) : Nat := if disk.sectorCount = 0 then 256 else disk.sectorCount.toNat

def begin (disk : Disk) (phase : Phase) : Disk :=
  { disk with phase := phase, busy := disk.delays 0, delays := fun n => disk.delays (n + 1) }

def finish (disk : Disk) : Disk :=
  match disk.phase with
  | .fetching lba left => { disk with phase := .sending lba left (List.ofFn (disk.medium lba)), intrq := true }
  | .preparing lba left => { disk with phase := .taking lba left [] }
  | .storing lba left words =>
    { disk with
      medium := Function.update disk.medium lba fun i => words.getD i 0
      phase := if left ≤ 1 then .idle else .taking (lba + 1) (left - 1) []
      intrq := true }
  | .flushing => { disk with phase := .idle, intrq := true }
  | _ => disk

/-- A write to the command register. Without a block address the disk has nothing to transfer. -/
def command (disk : Disk) (value : UInt8) : Disk :=
  let ready := { disk with intrq := false }
  match value, disk.lba with
  | 0x20, some lba => ready.begin (.fetching lba disk.sectors)
  | 0x30, some lba => ready.begin (.preparing lba disk.sectors)
  | 0xE7, _ => ready.begin .flushing
  | _, _ => { disk with phase := .idle, intrq := true }

def readData (disk : Disk) : UInt16 × Disk :=
  match disk.phase with
  | .sending lba left (word :: rest) =>
    if rest ≠ [] then (word, { disk with phase := .sending lba left rest })
    else if left ≤ 1 then (word, { disk with phase := .idle })
    else (word, disk.begin (.fetching (lba + 1) (left - 1)))
  | _ => (0, disk)

def writeData (disk : Disk) (word : UInt16) : Disk :=
  match disk.phase with
  | .taking lba left words =>
    if words.length + 1 < 256 then { disk with phase := .taking lba left (words ++ [word]) }
    else disk.begin (.storing lba left (words ++ [word]))
  | _ => disk

def portIn (disk : Disk) (port : UInt16) : UInt32 × Disk :=
  match port with
  | 0x1F0 => (disk.readData.1.toUInt32, disk.readData.2)
  | 0x1F2 => (disk.sectorCount.toUInt32, disk)
  | 0x1F3 => (disk.lbaLow.toUInt32, disk)
  | 0x1F4 => (disk.lbaMid.toUInt32, disk)
  | 0x1F5 => (disk.lbaHigh.toUInt32, disk)
  | 0x1F6 => (disk.drive.toUInt32, disk)
  | 0x1F7 => (disk.status.toUInt32, { disk with intrq := false })
  | _ => (0, disk)

def portOut (disk : Disk) (port : UInt16) (value : UInt32) : Disk :=
  match port with
  | 0x1F0 => disk.writeData value.toUInt16
  | 0x1F2 => { disk with sectorCount := value.toUInt8 }
  | 0x1F3 => { disk with lbaLow := value.toUInt8 }
  | 0x1F4 => { disk with lbaMid := value.toUInt8 }
  | 0x1F5 => { disk with lbaHigh := value.toUInt8 }
  | 0x1F6 => { disk with drive := value.toUInt8 }
  | 0x1F7 => disk.command value.toUInt8
  | _ => disk

def remaining (disk : Disk) : Nat := if disk.phase.working then disk.busy + 1 else 0

end Disk

/-! ## System calls of the service -/

structure System where
  disk : Disk
  irq : IrqLine

namespace System

/-- A rising interrupt line reaches `ata_interrupt_handler`. -/
def react (system : System) (disk : Disk) : System :=
  ⟨disk, if !system.disk.intrq && disk.intrq then system.irq.unblock else system.irq⟩

/-- The disk works for the time of one access. -/
def elapse (system : System) : System :=
  if system.disk.phase.working then
    if system.disk.busy = 0 then system.react system.disk.finish
    else { system with disk := { system.disk with busy := system.disk.busy - 1 } }
  else system

def sysPortIn (system : System) (port : UInt16) : UInt32 × System :=
  let now := system.elapse
  ((now.disk.portIn port).1, now.react (now.disk.portIn port).2)

def sysPortOut (system : System) (port : UInt16) (value : UInt32) : System :=
  let now := system.elapse
  now.react (now.disk.portOut port value)

/-- `none` when the call never returns. -/
def sysWaitIrq (system : System) : Option System :=
  let now := system.elapse
  let waits := { now with irq := now.irq.wait }
  if waits.irq.waiting then
    let after := waits.react waits.disk.finish
    if after.irq.waiting then none else some after
  else some waits

/-! ## The driver -/

theorem working_finish (disk : Disk) : disk.finish.phase.working = false := by
  unfold Disk.finish
  split
  case h_3 => dsimp only; split <;> rfl
  case h_5 fetching preparing storing flushing =>
    cases phase : disk.phase with
    | fetching lba left => exact absurd phase (fetching lba left)
    | preparing lba left => exact absurd phase (preparing lba left)
    | storing lba left words => exact absurd phase (storing lba left words)
    | flushing => exact absurd phase flushing
    | _ => rfl
  all_goals rfl

def ready (system : System) : Bool :=
  let status := (system.sysPortIn 0x1F7).1.toUInt8
  status &&& 0x80 = 0 ∧ status &&& 0x40 ≠ 0

theorem ready_iff (system : System) : system.ready = true ↔ system.elapse.disk.phase.working = false := by
  have polled : (system.sysPortIn 0x1F7).1.toUInt8 = system.elapse.disk.status := by
    show system.elapse.disk.status.toUInt32.toUInt8 = _
    simp
  unfold ready
  rw [polled, Disk.status]
  cases system.elapse.disk.phase.working with
  | true =>
    rw [if_pos rfl]
    decide
  | false => cases system.elapse.disk.phase.transfers <;> decide

theorem elapse_resting {system : System} (resting : system.disk.phase.working = false) : system.elapse = system := by
  simp [elapse, resting]

theorem elapse_last {system : System} (works : system.disk.phase.working = true) (last : system.disk.busy = 0) :
    system.elapse = system.react system.disk.finish := by
  rw [elapse, if_pos works, if_pos last]

theorem elapse_working {system : System} {n : Nat} (works : system.disk.phase.working = true)
    (more : system.disk.busy = n + 1) : system.elapse = ⟨{ system.disk with busy := n }, system.irq⟩ := by
  simp [elapse, works, more]

theorem remaining_poll {system : System} (unready : system.ready = false) :
    (system.sysPortIn 0x1F7).2.disk.remaining < system.disk.remaining := by
  have works : system.elapse.disk.phase.working = true := by
    cases still : system.elapse.disk.phase.working with
    | true => rfl
    | false =>
      rw [(ready_iff system).mpr still] at unready
      cases unready
  have before : system.disk.phase.working = true := by
    cases still : system.disk.phase.working with
    | true => rfl
    | false =>
      rw [elapse_resting still, still] at works
      cases works
  have polled : (system.sysPortIn 0x1F7).2.disk.remaining = system.elapse.disk.remaining := rfl
  rw [polled]
  cases left : system.disk.busy with
  | zero =>
    rw [elapse_last before left, react, working_finish] at works
    cases works
  | succ n =>
    rw [elapse_working before left]
    simp [Disk.remaining, before, left]

def ataWaitReady (system : System) : System :=
  if system.ready then (system.sysPortIn 0x1F7).2 else ataWaitReady (system.sysPortIn 0x1F7).2
termination_by system.disk.remaining
decreasing_by exact remaining_poll (Bool.eq_false_iff.mpr (by assumption))

def issue (system : System) (lba : UInt32) (command : UInt32) : System :=
  let system := system.sysPortOut 0x1F6 ((0xE0 : UInt32) ||| ((lba >>> 24) &&& 0x0F))
  let system := system.sysPortOut 0x1F2 1
  let system := system.sysPortOut 0x1F3 (lba &&& 0xFF)
  let system := system.sysPortOut 0x1F4 ((lba >>> 8) &&& 0xFF)
  let system := system.sysPortOut 0x1F5 ((lba >>> 16) &&& 0xFF)
  system.sysPortOut 0x1F7 command

def readWord (state : System × List UInt8) (i : Nat) : System × List UInt8 :=
  let (value, system) := state.1.sysPortIn 0x1F0
  let word := value.toUInt16
  (system, (state.2.set (i * 2) (word &&& 0xFF).toUInt8).set (i * 2 + 1) (word >>> 8).toUInt8)

def ataReadSector (system : System) (lba : UInt32) (buf : List UInt8) : Option (System × List UInt8) :=
  let issued := system.ataWaitReady.issue lba 0x20
  issued.sysWaitIrq.map fun system => (List.range 256).foldl readWord (system, buf)

def writeWord (buf : List UInt8) (system : System) (i : Nat) : System :=
  let word := (buf.getD (i * 2) 0).toUInt16 ||| (buf.getD (i * 2 + 1) 0).toUInt16 <<< 8
  system.sysPortOut 0x1F0 word.toUInt32

def ataWriteSector (system : System) (lba : UInt32) (buf : List UInt8) : Option System :=
  let issued := system.ataWaitReady.issue lba 0x30
  ((List.range 256).foldl (writeWord buf) issued.ataWaitReady).sysWaitIrq

def ataFlush (system : System) : Option System := (system.ataWaitReady.sysPortOut 0x1F7 0xE7).sysWaitIrq

end System

/-! ## The service loop -/

structure Service where
  system : System
  /-- The shared page. -/
  shm : Base.Buffer 4096 UInt8

namespace Service

/-- One round of the loop, with its reply. The slice panics when `offset + 512` wraps around. -/
def handle (service : Service) (msg : Message) : Option (Service × Message) :=
  let lba := msg.rsi.toUInt32
  let offset := msg.rdx
  if offset + 512 > 4096 then some (service, { msg with rdi := 1 })
  else if lba ≥ 20480 then some (service, { msg with rdi := 1 })
  else if msg.rdi = msgBlockRead then
    (service.shm.read offset.toNat 512).bind fun buf =>
      (service.system.ataReadSector lba buf).map fun (system, buf) =>
        (⟨system, service.shm.write offset.toNat buf⟩, { msg with rdi := 0 })
  else if msg.rdi = msgBlockWrite then
    (service.shm.read offset.toNat 512).bind fun buf =>
      (service.system.ataWriteSector lba buf).map fun system =>
      ({ service with system := system }, { msg with rdi := 0 })
  else if msg.rdi = msgBlockFlush then
    service.system.ataFlush.map fun system => ({ service with system := system }, { msg with rdi := 0 })
  else some (service, { msg with rdi := 1 })

end Service

end ElseOS.Ata
