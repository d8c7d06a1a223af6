import ElseOS.Base.Buffer
import ElseOS.Base.Net
import ElseOS.Services.Packets

/-! The network stack: the RTL8139 driver, its transmit thread, the network service and the
UDP applications.

They exchange messages over three endpoints and packets over one shared page, of which the
driver fills the first area, the service the other two. A message is read together with the
bytes its sender put into the page for it, which no program looks at. Every copy into or out
of the page, every send and every receive is one step. A thread that faults at the end of
the page or panics is gone. -/

set_option autoImplicit false

namespace ElseOS.Network

open Base (Command Net Port Protocol Run Status)

/-! ## Messages and the page -/

abbrev Page := Base.Buffer 4096 UInt8

/-- The three areas of the page: packets from the NIC, frames for it, payloads for the application. -/
inductive Area where
  | rx
  | tx
  | app
  deriving DecidableEq, Repr

def Area.offset : Area → Nat
  | .rx => 0
  | .tx => 2048
  | .app => 3072

inductive Endpoint where
  | nic
  | net
  | app
  deriving DecidableEq, Repr

def capNicDriverEp : UInt64 := 11
def capNetworkServiceEp : UInt64 := 12
def capApplicationEp : UInt64 := 13

/-- The endpoint of the stack at a handle; a send to any other handle fails. -/
def endpointAt (handle : UInt64) : Option Endpoint :=
  if handle = capNicDriverEp then some .nic
  else if handle = capNetworkServiceEp then some .net
  else if handle = capApplicationEp then some .app
  else none

structure Parcel where
  msg : Message
  wrote : List UInt8
  deriving DecidableEq, Repr

def macParcel (mac : Mac) : Parcel := ⟨⟨msgNetRx, 0xFFFFFFFF, mac.word, 0, 0, 0⟩, []⟩

def rxParcel (packet : List UInt8) : Parcel := ⟨⟨msgNetRx, UInt64.ofNat packet.length, 0, 0, 0, 0⟩, packet⟩

def txParcel (length : UInt64) (frame : List UInt8) : Parcel := ⟨⟨msgNetTx, length, 0, 0, 0, 0⟩, frame⟩

def ackParcel : Parcel := ⟨⟨msgNetTxAck, 0, 0, 0, 0, 0⟩, []⟩

def bindParcel : Parcel := ⟨⟨msgUdpBind, 8080, capApplicationEp, 0, 0, 0⟩, []⟩

def udpRecvParcel (payload : List UInt8) (srcIp : UInt32) (srcPort : UInt16) : Parcel :=
  ⟨⟨msgUdpRecv, UInt64.ofNat payload.length, srcIp.toUInt64, srcPort.toUInt64, 0, 0⟩, payload⟩

def echoParcel (received : Message) : Parcel :=
  ⟨⟨msgUdpSend, received.rdx.toUInt32.toUInt64, received.r10.toUInt16.toUInt64, 8080, received.rsi, 0⟩, []⟩

/-! ## Programs -/

/-- A packet as the NIC hands it over, with a length of sixteen bits. -/
structure Packet where
  bytes : List UInt8
  short : bytes.length < 65536

structure Turn (Local : Type) where
  copies : Option (Area × List UInt8)
  next : Local

def Turn.apply {Local : Type} (turn : Turn Local) (page : Page) : Page :=
  match turn.copies with
  | some (area, bytes) => page.write area.offset bytes
  | none => page

inductive Driver where
  | starting (mac : Mac)
  | polling
  | announcing (packet : List UInt8)
  | gone
  deriving DecidableEq, Repr

def Driver.copy (packet : List UInt8) : Turn Driver :=
  ⟨some (.rx, packet), if Area.rx.offset + packet.length ≤ 4096 then .announcing packet else .gone⟩

inductive Transmitter where
  | listening
  | received (parcel : Parcel)
  | acknowledging (parcel : Parcel) (frame : List UInt8)
  | gone
  deriving DecidableEq, Repr

def Transmitter.take (parcel : Parcel) (page : Page) : Turn Transmitter :=
  if parcel.msg.rdi = msgNetTx then
    match page.read Area.tx.offset parcel.msg.rsi.toNat with
    | some frame => ⟨none, .acknowledging parcel frame⟩
    | none => ⟨none, .gone⟩
  else ⟨none, .listening⟩

inductive Service where
  | listening (statics : Statics)
  | received (statics : Statics) (parcel : Parcel)
  | handling (statics : Statics) (parcel : Parcel) (packet : List UInt8)
  | transmitting (statics : Statics) (length : UInt64) (frame : List UInt8)
  | delivering (statics : Statics) (payload : List UInt8) (srcIp : UInt32) (srcPort : UInt16)
  | gone
  deriving DecidableEq, Repr

namespace Service

def sendArpRequest (statics : Statics) : Turn Service :=
  ⟨some (.tx, arpRequest statics.ourMac), .transmitting statics 42 (arpRequest statics.ourMac)⟩

/-- The header is in the page before the slice of the transmit area panics or the copy of
the payload runs over the end of the page. -/
def sendUdp (statics : Statics) (destIp : UInt32) (destPort srcPort : UInt16) (payloadLen : UInt64) (page : Page) :
    Turn Service :=
  if statics.gatewayMacResolved then
    let header := udpHeader statics destIp destPort srcPort payloadLen
    -- `tx_buf[42..42+payload_len]` of a slice of 1500 bytes
    if 42 + payloadLen > 1500 ∨ 42 > 42 + payloadLen then ⟨some (.tx, header), .gone⟩
    else match page.read Area.app.offset payloadLen.toNat with
      | some payload =>
        ⟨some (.tx, header ++ payload), .transmitting statics (14 + (20 + 8 + payloadLen)) (header ++ payload)⟩
      | none => ⟨some (.tx, header ++ (page.read Area.app.offset 1024).getD []), .gone⟩
  else ⟨none, .listening statics⟩

def dispatch (statics : Statics) (parcel : Parcel) (page : Page) : Turn Service :=
  let msg := parcel.msg
  if msg.rdi = msgNetRx then
    if msg.rsi = 0xFFFFFFFF then sendArpRequest { statics with ourMac := .ofWord msg.rdx }
    else match page.read Area.rx.offset msg.rsi.toNat with
      | some packet => ⟨none, .handling statics parcel packet⟩
      | none => ⟨none, .gone⟩
  else if msg.rdi = msgNetTxAck then ⟨none, .listening statics⟩
  else if msg.rdi = msgUdpBind then
    ⟨none, .listening { statics with boundPort := msg.rsi.toUInt16, boundEp := msg.rdx }⟩
  else if msg.rdi = msgUdpSend then
    sendUdp statics msg.rsi.toUInt32 msg.rdx.toUInt16 msg.r10.toUInt16 msg.r8 page
  else ⟨none, .listening statics⟩

def handle (statics : Statics) (packet : List UInt8) : Turn Service :=
  match handlePacket statics packet with
  | (statics, .ignore) => ⟨none, .listening statics⟩
  | (statics, .transmit frame) => ⟨some (.tx, frame), .transmitting statics 42 frame⟩
  | (statics, .deliver payload srcIp srcPort) =>
    ⟨some (.app, payload),
      if Area.app.offset + payload.length ≤ 4096 then .delivering statics payload srcIp srcPort else .gone⟩
  | (_, .panic) => ⟨none, .gone⟩

end Service

inductive Application where
  | starting
  | listening
  | received (parcel : Parcel)
  | echoing (parcel : Parcel) (payload : List UInt8)
  | gone
  deriving DecidableEq, Repr

def Application.look (parcel : Parcel) (page : Page) : Turn Application :=
  if parcel.msg.rdi = msgUdpRecv then
    match page.read Area.app.offset parcel.msg.rsi.toNat with
    | some payload => ⟨none, .echoing parcel payload⟩
    | none => ⟨none, .gone⟩
  else ⟨none, .listening⟩

/-! ## The stack -/

inductive Party (App : Type) where
  | driver
  | transmitter
  | service
  | app (name : App)
  deriving DecidableEq, Repr

variable {App : Type}

abbrev Local : Party App → Type
  | .driver => Driver
  | .transmitter => Transmitter
  | .service => Service
  | .app _ => Application

def turn : (party : Party App) → Local party → Packet → Page → Option (Turn (Local party))
  | .driver, .polling, packet, _ => some (Driver.copy packet.bytes)
  | .transmitter, .received parcel, _, page => some (Transmitter.take parcel page)
  | .service, .received statics parcel, _, page => some (Service.dispatch statics parcel page)
  | .service, .handling statics _ packet, _, _ => some (Service.handle statics packet)
  | .app _, .received parcel, _, page => some (Application.look parcel page)
  | _, _, _, _ => none

def call : (party : Party App) → Local party → Page → Option (Command Endpoint Parcel Page (Local party))
  | .driver, .starting mac, _ => some (.send .net (macParcel mac) Driver.polling)
  | .driver, .announcing packet, _ => some (.send .net (rxParcel packet) Driver.polling)
  | .transmitter, .listening, _ => some (.receive .nic)
  | .transmitter, .acknowledging _ _, _ => some (.send .net ackParcel Transmitter.listening)
  | .service, .listening _, _ => some (.receive .net)
  | .service, .transmitting statics length frame, _ =>
    some (.send .nic (txParcel length frame) (Service.listening statics))
  | .service, .delivering statics payload srcIp srcPort, page =>
    match endpointAt statics.boundEp with
    | some ep => some (.send ep (udpRecvParcel payload srcIp srcPort) (Service.listening statics))
    | none => some (.compute (Service.listening statics) page)
  | .app _, .starting, _ => some (.send .net bindParcel Application.listening)
  | .app _, .listening, _ => some (.receive .app)
  | .app _, .echoing parcel _, _ => some (.send .net (echoParcel parcel.msg) Application.listening)
  | _, _, _ => none

def protocol : Protocol (Party App) Endpoint Parcel Page Packet Local where
  command party state packet page :=
    match turn party state packet page with
    | some turn => some (.compute turn.next (turn.apply page))
    | none => call party state page
  resume
    | .transmitter, .listening, parcel => Transmitter.received parcel
    | .service, .listening statics, parcel => Service.received statics parcel
    | .app _, .listening, parcel => Application.received parcel
    | _, state, _ => state
  blank := ⟨.zero, []⟩

abbrev Stack (App : Type) := Net (Party App) Endpoint Parcel Page Local

/-- Every thread is about to make its first call; the page holds whatever the frame held. -/
def start (mac : Mac) (page : Page) : Stack App :=
  Net.start (fun
    | .driver => Driver.starting mac
    | .transmitter => Transmitter.listening
    | .service => Service.listening .initial
    | .app _ => Application.starting) page

abbrev StackRun (App : Type) [DecidableEq App] (mac : Mac) (page : Page) :=
  Run (Net.step protocol) (start mac page : Stack App)

namespace Stack

/-! ## Sends that wait for each other -/

/-- The service waits for the transmit thread to take a frame while that thread waits for the
service to take its acknowledgement. -/
def Deadlocked (net : Stack App) : Prop :=
  (net.status .service).sendsTo = some .nic ∧ (net.status .transmitter).sendsTo = some .net

variable [DecidableEq App] {mac : Mac} {page : Page} {net : Stack App}
  {history : List (Stack App × (Party App × Packet))}

/-- If a receive comes first on one of the two endpoints, sends never wait there. -/
theorem undeadlocked_of_run (run : StackRun App mac page history net)
    (ordered : Run.Guarded (fun net label => net.sendsFirst protocol .nic label = false) history ∨
      Run.Guarded (fun net label => net.sendsFirst protocol .net label = false) history) : ¬ net.Deadlocked := by
  rintro ⟨service, transmitter⟩
  -- each of the two endpoints alone rules out one half of the cycle
  rcases ordered with nic | net
  · exact Net.nobody_sends_of_run run nic .service service
  · exact Net.nobody_sends_of_run run net .transmitter transmitter

instance (net : Stack App) : Decidable net.Deadlocked := inferInstanceAs (Decidable (_ ∧ _))

def arpQuery : Packet :=
  ⟨List.replicate 6 0xFF ++ Mac.zero.bytes ++ arpHeader 1 ++ Mac.zero.bytes ++ gatewayIp ++
    List.replicate 6 0x00 ++ ourIp, by decide⟩

/-- The driver's first message and the service's first frame come before the receives they
are for, so both endpoints queue senders. An ARP query then stands in front of the
acknowledgement, and the service answers it with a second frame. -/
theorem deadlock_reached :
    ∃ history, ∃ net : Stack Unit, StackRun Unit .zero (fun _ => 0) history net ∧ net.Deadlocked := by
  obtain ⟨history, net, run, _, _, stuck⟩ := Run.of_check (Net.step protocol) (fun _ _ => true)
    (start .zero (fun _ => 0) : Stack Unit)
    ([.driver, .service, .service, .service, .driver, .driver, .transmitter, .transmitter, .transmitter, .service,
      .service, .service, .service].map fun party => (party, arpQuery))
    (fun net : Stack Unit => decide net.Deadlocked) (by decide +kernel)
  exact ⟨history, net, run, of_decide_eq_true stuck⟩

/-- With the transmit thread at its endpoint first, the service sends the same two frames. -/
theorem undeadlocked_listening_first : ∃ history, ∃ net : Stack Unit, StackRun Unit .zero (fun _ => 0) history net ∧
    (net.status .transmitter).sendsTo = some .net ∧ ¬ net.Deadlocked := by
  obtain ⟨history, net, run, _, ordered, waiting⟩ := Run.of_check (Net.step protocol)
    (fun net label => !net.sendsFirst protocol .nic label)
    (start .zero (fun _ => 0) : Stack Unit)
    ([.transmitter, .driver, .service, .service, .service, .driver, .driver, .transmitter, .transmitter, .service,
      .service, .service, .service].map fun party => (party, arpQuery))
    (fun net : Stack Unit => decide ((net.status .transmitter).sendsTo = some .net)) (by decide +kernel)
  refine ⟨history, net, run, of_decide_eq_true waiting, undeadlocked_of_run run (.inl ?_)⟩
  intro entry member
  simpa using ordered entry member

end Stack

end ElseOS.Network
