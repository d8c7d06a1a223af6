import ElseOS.Services.Network
import ElseOS.Task.IrqLine

/-! The RTL8139 service and its device.

The device keeps received frames in a ring and four transmit descriptors, and raises an
edge when an unmasked cause bit appears where none was set. The service has two threads:
`main` drains the ring after each interrupt, `tx_thread` hands frames to the descriptors
in turn. Every register access and every copy is one step; the device acts in between. -/

set_option autoImplicit false

namespace ElseOS.Rtl8139

open Network (Page Area msgNetTx)

/-! ## The device -/

/-- Cause bits of `REG_ISR`: a frame was received, a frame was sent. -/
def ROK : UInt16 := 0x01
def TOK : UInt16 := 0x04

def imr : UInt16 := 0x0005

/-- One of the four pairs of transmit registers. Writing the status hands the descriptor
to the device, which owns it until the frame is sent. -/
structure Descriptor where
  address : UInt32
  status : UInt32
  owned : Bool
  deriving DecidableEq, Repr

structure Nic where
  isr : UInt16
  /-- Frames in the receive ring, with their checksums, oldest first. -/
  ring : List (List UInt8)
  capr : UInt16
  descriptors : Fin 4 → Descriptor
  /-- Frames are sent in the order of the descriptors; this one is next. -/
  oldest : Fin 4
  /-- An edge that has not reached the kernel yet. -/
  raised : Bool

namespace Nic

def reset : Nic := ⟨0, [], 0, fun _ => ⟨0, 0, false⟩, 0, false⟩

def asserted (nic : Nic) : Bool := nic.isr &&& imr ≠ 0

/-- Set cause bits. The interrupt is edge-triggered. -/
def cause (nic : Nic) (bits : UInt16) : Nic :=
  let after := { nic with isr := nic.isr ||| bits }
  { after with raised := nic.raised || (!nic.asserted && after.asserted) }

def arrive (nic : Nic) (frame : List UInt8) : Nic := { nic with ring := nic.ring ++ [frame] }.cause ROK

def complete (nic : Nic) : Option Nic :=
  let descriptor := nic.descriptors nic.oldest
  if descriptor.owned then
    some ({ nic with
      descriptors := Function.update nic.descriptors nic.oldest { descriptor with owned := false }
      oldest := nic.oldest + 1 }.cause TOK)
  else none

def clear (nic : Nic) (bits : UInt16) : Nic := { nic with isr := nic.isr &&& ~~~bits }

/-- A write to `REG_CAPR` gives the first frame of the ring back. -/
def advance (nic : Nic) (value : UInt16) : Nic := { nic with capr := value, ring := nic.ring.tail }

def bufferEmpty (nic : Nic) : Bool := nic.ring.isEmpty

end Nic

/-! ## The receive loop -/

inductive Main where
  /-- About to call `sys_wait_irq`. -/
  | waiting
  | blocked
  /-- `sys_wait_irq` returned; about to read `REG_ISR`. -/
  | reading
  | clearingTok (status : UInt16)
  /-- About to read `REG_COMMAND`. -/
  | polling
  /-- Copies the first frame of the ring to the packet page and sends it on. -/
  | announcing (frame : List UInt8)
  /-- About to write `REG_CAPR`. -/
  | advancing (frame : List UInt8)
  | clearingRok
  deriving DecidableEq, Repr

def Main.afterTok (status : UInt16) : Main := if status &&& ROK ≠ 0 then .polling else .waiting

def Main.afterStatus (status : UInt16) : Main :=
  if status &&& TOK ≠ 0 then .clearingTok status else Main.afterTok status

/-- The next `rx_offset`; the frame in the ring has a header of 4 bytes and its checksum. -/
def nextOffset (rxOffset : UInt32) (frame : List UInt8) : UInt32 :=
  let offset := (rxOffset + UInt32.ofNat frame.length + 4 + 3) &&& ~~~3
  if offset ≥ 8192 then offset - 8192 else offset

/-! ## The transmit thread -/

inductive TxWrite where
  | buffer (offset : Nat) (bytes : List UInt8)
  | address (desc : Fin 4) (value : UInt32)
  | status (desc : Fin 4) (value : UInt32)
  deriving DecidableEq, Repr

inductive Tx where
  | listening
  | received (length : UInt64)
  | copied (length : UInt64)
  | addressed (length : UInt64)
  /-- The descriptor is handed over; `NEXT_TX_DESC` moves on and the acknowledgement goes out. -/
  | handed
  | gone
  deriving DecidableEq, Repr

structure State where
  nic : Nic
  irq : IrqLine
  main : Main
  rxOffset : UInt32
  tx : Tx
  nextTxDesc : Fin 4
  /-- The four transmit buffers, one after another. -/
  buffers : Base.Buffer 8192 UInt8

def bufferAddress (txBufPhys : UInt64) (desc : Fin 4) : UInt32 := (txBufPhys + UInt64.ofNat desc * 2048).toUInt32

def sendLen (length : UInt64) : UInt32 := if length < 60 then 60 else length.toUInt32

/-- The copy to the buffer, with the padding behind a short frame. A copy that runs over the
end of the packet page has written what the page held when it faults. -/
def copyWrites (page : Page) (desc : Fin 4) (length : UInt64) : List TxWrite :=
  match page.read Area.tx.offset length.toNat with
  | some frame =>
    .buffer (desc * 2048) frame ::
      if length < 60 then [.buffer (desc * 2048 + length.toNat) (List.replicate (60 - length.toNat) 0)] else []
  | none => [.buffer (desc * 2048) ((page.read Area.tx.offset 2048).getD [])]

def txWrites (txBufPhys : UInt64) (state : State) (page : Page) : List TxWrite :=
  let desc := state.nextTxDesc
  match state.tx with
  | .received length => copyWrites page desc length
  | .copied _ => [.address desc (bufferAddress txBufPhys desc)]
  | .addressed length => [.status desc (sendLen length)]
  | _ => []

namespace State

def write (state : State) : TxWrite → State
  | .buffer offset bytes => { state with buffers := state.buffers.write offset bytes }
  | .address desc value =>
    let descriptor := { state.nic.descriptors desc with address := value }
    { state with nic := { state.nic with descriptors := Function.update state.nic.descriptors desc descriptor } }
  | .status desc value =>
    let descriptor := { state.nic.descriptors desc with status := value, owned := true }
    { state with nic := { state.nic with descriptors := Function.update state.nic.descriptors desc descriptor } }

end State

def Tx.next (page : Page) : Tx → Option Tx
  | .received length => if (page.read Area.tx.offset length.toNat).isSome then some (.copied length) else some .gone
  | .copied length => some (.addressed length)
  | .addressed _ => some .handed
  | .handed => some .listening
  | _ => none

/-! ## The system -/

inductive Act where
  | arrive (frame : List UInt8)
  /-- The device finishes a transmission. -/
  | complete
  /-- The edge reaches the kernel, whose handler calls `unblock_irq`. -/
  | interrupt
  | main
  /-- `sys_recv` of `tx_thread` returns a message. -/
  | request (msg : Message)
  /-- A step of `tx_thread`, with what the packet page holds then. -/
  | tx (page : Page)

namespace State

def mainStep (state : State) : Option State :=
  match state.main with
  | .waiting =>
    some { state with irq := state.irq.wait, main := if state.irq.pending then .reading else .blocked }
  | .blocked => none
  | .reading => some { state with main := .afterStatus state.nic.isr }
  | .clearingTok status => some { state with nic := state.nic.clear TOK, main := .afterTok status }
  | .polling =>
    match state.nic.ring with
    | [] => some { state with main := .clearingRok }
    | frame :: _ => some { state with main := .announcing frame }
  | .announcing frame => some { state with main := .advancing frame }
  | .advancing frame =>
    let offset := nextOffset state.rxOffset frame
    some { state with nic := state.nic.advance (offset - 16).toUInt16, rxOffset := offset, main := .polling }
  | .clearingRok => some { state with nic := state.nic.clear ROK, main := .waiting }

def turn (state : State) : Fin 4 := if state.tx = .handed then state.nextTxDesc + 1 else state.nextTxDesc

def txStep (txBufPhys : UInt64) (state : State) (page : Page) : Option State :=
  (state.tx.next page).map fun next =>
    { (txWrites txBufPhys state page).foldl write state with
      tx := next
      nextTxDesc := state.turn }

def interrupt (state : State) : Option State :=
  if state.nic.raised then
    some { state with
      nic := { state.nic with raised := false }
      irq := state.irq.unblock
      main := if state.irq.waiting then .reading else state.main }
  else none

def step (txBufPhys : UInt64) (state : State) : Act → Option State
  | .arrive frame => some { state with nic := state.nic.arrive frame }
  | .complete => state.nic.complete.map fun nic => { state with nic := nic }
  | .interrupt => state.interrupt
  | .main => state.mainStep
  | .request msg =>
    match state.tx with
    | .listening => some (if msg.rdi = msgNetTx then { state with tx := .received msg.rsi } else state)
    | _ => none
  | .tx page => state.txStep txBufPhys page

/-- The device is initialised; `main` has announced its address and enters the loop. -/
def start (buffers : Base.Buffer 8192 UInt8) : State := ⟨.reset, .quiet, .waiting, 0, .listening, 0, buffers⟩

end State

abbrev DriverRun (txBufPhys : UInt64) (buffers : Base.Buffer 8192 UInt8) :=
  Base.Run (State.step txBufPhys) (State.start buffers)

end ElseOS.Rtl8139
