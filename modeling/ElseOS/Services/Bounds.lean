import ElseOS.Base.Region
import ElseOS.Services.Datagrams

/-! Which packets and which requests the network service handles inside its buffers.

The handlers of `Checked` fail at every index and slice that is out of range, and the
handlers of the service turn out to be those, with a panic where they fail. What is left to
say is where the bytes of a copy lie in the page. -/

set_option autoImplicit false

namespace ElseOS.Network

open Base (Region)

namespace Checked

/-! ## Indices and slices that fail -/

def index (packet : List UInt8) (i : Nat) : Option UInt8 := packet[i]?

def range (packet : List UInt8) (first last : Nat) : Option (List UInt8) :=
  if first ≤ last ∧ last ≤ packet.length then some (slice packet first last) else none

def rest (packet : List UInt8) (first : Nat) : Option (List UInt8) :=
  if first ≤ packet.length then some (packet.drop first) else none

def word (packet : List UInt8) (i : Nat) : Option UInt16 := do
  let high ← index packet i
  let low ← index packet (i + 1)
  return (high.toUInt16 <<< 8) ||| low.toUInt16

def handleArp (statics : Statics) (packet : List UInt8) : Option (Statics × Reaction) :=
  if packet.length < 28 then some (statics, .ignore)
  else do
    let opcode ← word packet 6
    if opcode = 2 then
      let senderIp ← range packet 14 18
      if senderIp = gatewayIp then
        let mac : Mac := ⟨← index packet 8, ← index packet 9, ← index packet 10, ← index packet 11, ← index packet 12,
          ← index packet 13⟩
        return ({ statics with gatewayMac := mac, gatewayMacResolved := true }, .ignore)
      else return (statics, .ignore)
    else if opcode = 1 then
      let targetIp ← range packet 24 28
      if targetIp = ourIp then
        let senderMac ← range packet 8 14
        let senderIp ← range packet 14 18
        let frame := senderMac ++ statics.ourMac.bytes ++ arpHeader 2 ++ statics.ourMac.bytes ++ ourIp ++ senderMac ++
          senderIp
        -- `tx_buf` is a slice of 60 bytes
        if frame.length ≤ 60 then return (statics, .transmit frame) else none
      else return (statics, .ignore)
    else return (statics, .ignore)

def handleUdp (statics : Statics) (packet srcIp : List UInt8) : Option Reaction :=
  if packet.length < 8 then some .ignore
  else do
    let srcPort ← word packet 0
    let destPort ← word packet 2
    let length := (← word packet 4).toNat
    if length > packet.length ∨ length < 8 then return .ignore
    else if statics.boundPort = destPort ∧ statics.boundEp ≠ 0 then
      let payload ← range packet 8 length
      -- `src_ip.try_into().unwrap()` to four bytes
      if srcIp.length = 4 then return .deliver payload (ofBeBytes srcIp) srcPort else none
    else return .ignore

def handleIpv4 (statics : Statics) (packet : List UInt8) : Option Reaction :=
  if packet.length < 20 then some .ignore
  else do
    let ihl := ((← index packet 0) &&& 0x0F).toNat * 4
    let protocol ← index packet 9
    let destIp ← range packet 16 20
    if destIp ≠ ourIp ∧ destIp ≠ broadcastIp then return .ignore
    else if protocol = 17 then
      let udpData ← rest packet ihl
      handleUdp statics udpData (← range packet 12 16)
    else return .ignore

def handlePacket (statics : Statics) (packet : List UInt8) : Option (Statics × Reaction) :=
  if packet.length ≥ 14 then do
    let ethType ← word packet 12
    if ethType = 0x0806 then handleArp statics (← rest packet 14)
    else if ethType = 0x0800 then return (statics, ← handleIpv4 statics (← rest packet 14))
    else return (statics, .ignore)
  else some (statics, .ignore)

/-! ## The handlers make these accesses -/

section Accesses

variable {packet : List UInt8} {i first last : Nat}

theorem index_eq (inside : i < packet.length) : index packet i = some (byteAt packet i) := by
  unfold index byteAt
  rw [List.getElem?_eq_getElem inside, List.getD_eq_getElem?_getD, List.getElem?_eq_getElem inside, Option.getD_some]

theorem word_eq (inside : i + 1 < packet.length) : word packet i = some (wordAt packet i) := by
  unfold word wordAt
  rw [index_eq (Nat.lt_of_succ_lt inside), index_eq inside]
  rfl

theorem range_eq (inside : last ≤ packet.length) (ordered : first ≤ last) :
    range packet first last = some (slice packet first last) := if_pos ⟨ordered, inside⟩

theorem rest_eq (inside : first ≤ packet.length) : rest packet first = some (packet.drop first) := if_pos inside

end Accesses

variable {statics : Statics} {packet : List UInt8}

theorem handleArp_eq : handleArp statics packet = some (Network.handleArp statics packet) := by
  unfold handleArp Network.handleArp
  by_cases short : packet.length < 28
  · rw [if_pos short, if_pos short]
  -- the longest access of a packet that is not ignored ends at byte 28
  have long : 28 ≤ packet.length := Nat.not_lt.mp short
  have frame := arpReply_length statics.ourMac long
  unfold arpReply at frame
  rw [if_neg short, if_neg short, word_eq (by omega), range_eq (by omega) (by decide), range_eq long (by decide),
    range_eq (by omega) (by decide), index_eq (by omega), index_eq (by omega), index_eq (by omega), index_eq (by omega),
    index_eq (by omega), index_eq (by omega)]
  simp only [Option.bind_eq_bind, Option.bind_some, frame, apply_ite some, arpReply]
  rfl

theorem handleUdp_eq {srcIp : List UInt8} (four : srcIp.length = 4) :
    handleUdp statics packet srcIp = some (Network.handleUdp statics packet srcIp) := by
  unfold handleUdp Network.handleUdp
  by_cases short : packet.length < 8
  · rw [if_pos short, if_pos short]
  have long : 8 ≤ packet.length := Nat.not_lt.mp short
  rw [if_neg short, if_neg short, word_eq (by omega), word_eq (by omega), word_eq (by omega)]
  simp only [Option.bind_eq_bind, Option.bind_some, four]
  by_cases outside : (wordAt packet 4).toNat > packet.length ∨ (wordAt packet 4).toNat < 8
  · rw [if_pos outside, if_pos outside]
    rfl
  · rw [if_neg outside, if_neg outside, range_eq (by omega) (by omega)]
    split <;> rfl

theorem handleIpv4_eq : handleIpv4 statics packet =
    if Network.handleIpv4 statics packet = .panic then none else some (Network.handleIpv4 statics packet) := by
  unfold handleIpv4 Network.handleIpv4
  by_cases short : packet.length < 20
  · simp [if_pos short]
  have long : 20 ≤ packet.length := Nat.not_lt.mp short
  rw [if_neg short, if_neg short, index_eq (by omega), index_eq (by omega), range_eq long (by decide),
    range_eq (by omega) (by decide)]
  simp only [Option.bind_eq_bind, Option.bind_some]
  split
  · rfl
  · split
    · split
      next beyond =>
        rw [rest, if_neg (Nat.not_le.mpr beyond)]
        rfl
      next inside =>
        rw [rest_eq (Nat.not_lt.mp inside), Option.bind_some,
          handleUdp_eq (slice_length (by omega) (by decide)), if_neg]
        unfold Network.handleUdp
        grind
    · rfl

theorem handlePacket_eq : handlePacket statics packet =
    if (Network.handlePacket statics packet).2 = .panic then none else some (Network.handlePacket statics packet) := by
  unfold handlePacket Network.handlePacket
  by_cases long : packet.length ≥ 14
  · rw [if_pos long, if_pos long, word_eq (by omega), rest_eq long]
    simp only [Option.bind_eq_bind, Option.bind_some]
    split
    · rw [handleArp_eq, if_neg]
      unfold Network.handleArp
      grind
    · split
      · rw [handleIpv4_eq]
        split <;> rfl
      · rfl
  · simp [if_neg long]

end Checked

/-! ## Received packets -/

def wholePage : Region := ⟨0, 4096⟩

def headerLength (packet : List UInt8) : Nat := (byteAt packet 0 &&& 0x0F).toNat * 4

/-- An IPv4 packet that `handle_ipv4` passes on to `handle_udp`. -/
def UdpForHost (packet : List UInt8) : Prop :=
  20 ≤ packet.length ∧ (slice packet 16 20 = ourIp ∨ slice packet 16 20 = broadcastIp) ∧ byteAt packet 9 = 17

def ForApplication (statics : Statics) (datagram : List UInt8) : Prop :=
  8 ≤ datagram.length ∧ 8 ≤ (wordAt datagram 4).toNat ∧ (wordAt datagram 4).toNat ≤ datagram.length ∧
    statics.boundPort = wordAt datagram 2 ∧ statics.boundEp ≠ 0

/-- If the frame carries a UDP packet for this host, it holds the whole of the IPv4 header the
packet speaks of, and at most 1024 bytes of payload for the application. -/
def Harmless (statics : Statics) (frame : List UInt8) : Prop :=
  14 ≤ frame.length → wordAt frame 12 = 0x0800 → UdpForHost (frame.drop 14) →
    headerLength (frame.drop 14) ≤ (frame.drop 14).length ∧
    (ForApplication statics ((frame.drop 14).drop (headerLength (frame.drop 14))) →
      (wordAt ((frame.drop 14).drop (headerLength (frame.drop 14))) 4).toNat ≤ 1032)

/-- The announced packet is read from the page, no access of the handlers is out of range, and
what they copy to the page stays in it. -/
def ReceptionContained (statics : Statics) (parcel : Parcel) (page : Page) : Prop :=
  ∃ packet, Service.dispatch statics parcel page = ⟨none, .handling statics parcel packet⟩ ∧
    page.read Area.rx.offset parcel.msg.rsi.toNat = some packet ∧
    Checked.handlePacket statics packet = some (handlePacket statics packet) ∧
    ∀ area bytes, (Service.handle statics packet).copies = some (area, bytes) →
      Region.Within ⟨area.offset, bytes.length⟩ wholePage

theorem handleUdp_delivers_iff {statics : Statics} {datagram srcIp payload : List UInt8} {source : UInt32}
    {srcPort : UInt16} : handleUdp statics datagram srcIp = .deliver payload source srcPort ↔
      ForApplication statics datagram ∧ payload = slice datagram 8 (wordAt datagram 4).toNat ∧
        source = ofBeBytes srcIp ∧ srcPort = wordAt datagram 0 := by
  unfold handleUdp ForApplication
  grind

theorem handleIpv4_panics_iff {statics : Statics} {packet : List UInt8} :
    handleIpv4 statics packet = .panic ↔ UdpForHost packet ∧ packet.length < headerLength packet := by
  unfold handleIpv4 UdpForHost headerLength handleUdp
  grind

theorem handleIpv4_delivers_iff {statics : Statics} {packet payload : List UInt8} {source : UInt32} {srcPort : UInt16} :
    handleIpv4 statics packet = .deliver payload source srcPort ↔
      UdpForHost packet ∧ headerLength packet ≤ packet.length ∧
        handleUdp statics (packet.drop (headerLength packet)) (slice packet 12 16) =
        .deliver payload source srcPort := by
  unfold handleIpv4 UdpForHost headerLength
  grind

/-- Only IPv4 packets are delivered or make the service panic. -/
theorem handlePacket_settles {statics : Statics} {frame : List UInt8} {reaction : Reaction} (quiet : reaction ≠ .ignore)
    (silent : ∀ answer, reaction ≠ .transmit answer) :
    (handlePacket statics frame).2 = reaction ↔
      14 ≤ frame.length ∧ wordAt frame 12 = 0x0800 ∧ handleIpv4 statics (frame.drop 14) = reaction := by
  unfold handlePacket handleArp
  grind

theorem harmless_iff {statics : Statics} {frame : List UInt8} :
    Harmless statics frame ↔ (handlePacket statics frame).2 ≠ .panic ∧
      ∀ payload source srcPort, (handlePacket statics frame).2 = .deliver payload source srcPort →
      payload.length ≤ 1024 := by
  rw [ne_eq, handlePacket_settles (by simp) (by simp), handleIpv4_panics_iff]
  constructor
  · intro harmless
    constructor
    · rintro ⟨long, type, udp, beyond⟩
      exact Nat.not_lt.mpr (harmless long type udp).1 beyond
    · intro payload source srcPort delivers
      rw [handlePacket_settles (by simp) (by simp), handleIpv4_delivers_iff, handleUdp_delivers_iff] at delivers
      obtain ⟨long, type, udp, _, application, rfl, _⟩ := delivers
      have bound := (harmless long type udp).2 application
      rw [slice_length application.2.2.1 application.2.1]
      omega
  · rintro ⟨calm, bounded⟩ long type udp
    have whole : headerLength (frame.drop 14) ≤ (frame.drop 14).length :=
      Nat.not_lt.mp fun beyond => calm ⟨long, type, udp, beyond⟩
    refine ⟨whole, fun application => ?_⟩
    have bound := bounded _ _ _ ((handlePacket_settles (by simp) (by simp)).mpr
      ⟨long, type, handleIpv4_delivers_iff.mpr ⟨udp, whole, handleUdp_delivers_iff.mpr ⟨application, rfl, rfl, rfl⟩⟩⟩)
    rw [slice_length application.2.2.1 application.2.1] at bound
    omega

theorem handle_copies_iff {statics : Statics} {packet bytes : List UInt8} {area : Area} :
    (Service.handle statics packet).copies = some (area, bytes) ↔
      (area = .tx ∧ (handlePacket statics packet).2 = .transmit bytes) ∨
      (area = .app ∧ ∃ source srcPort, (handlePacket statics packet).2 = .deliver bytes source srcPort) := by
  unfold Service.handle
  grind

theorem dispatch_announced (statics : Statics) {parcel : Parcel} (page : Page) (announced : parcel.msg.rdi = msgNetRx)
    (short : parcel.msg.rsi.toNat ≤ 1518) :
    ∃ packet, page.read Area.rx.offset parcel.msg.rsi.toNat = some packet ∧
      Service.dispatch statics parcel page = ⟨none, .handling statics parcel packet⟩ := by
  have inside : Area.rx.offset + parcel.msg.rsi.toNat ≤ 4096 := by
    show 0 + _ ≤ 4096
    omega
  have ordinary : parcel.msg.rsi ≠ 0xFFFFFFFF := by
    intro reserved
    rw [reserved] at short
    exact absurd short (by decide)
  unfold Service.dispatch
  rw [if_pos announced, if_neg ordinary]
  unfold Base.Buffer.read
  rw [dif_pos inside]
  exact ⟨_, rfl, rfl⟩

/-- Whatever the state of the service and the announced packet of at most 1518 bytes, it is
handled inside the packet and the page if and only if it is harmless. -/
theorem reception_contained_iff (statics : Statics) (page : Page) (parcel : Parcel)
    (announced : parcel.msg.rdi = msgNetRx) (short : parcel.msg.rsi.toNat ≤ 1518) :
    ReceptionContained statics parcel page ↔
      ∀ packet, page.read Area.rx.offset parcel.msg.rsi.toNat = some packet → Harmless statics packet := by
  obtain ⟨packet, read, dispatched⟩ := dispatch_announced statics page announced short
  have only : (∀ other, page.read Area.rx.offset parcel.msg.rsi.toNat = some other → Harmless statics other) ↔
      Harmless statics packet := by
    simp [read]
  rw [only, harmless_iff]
  constructor
  · rintro ⟨other, _, again, inside, copies⟩
    obtain rfl : packet = other := Option.some.inj (read.symm.trans again)
    constructor
    · intro panics
      rw [Checked.handlePacket_eq, if_pos panics] at inside
      cases inside
    · intro payload source srcPort delivers
      have within : 3072 + payload.length ≤ 0 + 4096 :=
        (copies .app payload (handle_copies_iff.mpr (.inr ⟨rfl, source, srcPort, delivers⟩))).2
      omega
  · rintro ⟨calm, bounded⟩
    refine ⟨packet, dispatched, read, ?_, ?_⟩
    · rw [Checked.handlePacket_eq, if_neg calm]
    · intro area bytes copied
      refine ⟨Nat.zero_le _, ?_⟩
      rcases handle_copies_iff.mp copied with ⟨rfl, transmits⟩ | ⟨rfl, source, srcPort, delivers⟩
      · have reply := handlePacket_transmits transmits
        show 2048 + bytes.length ≤ 0 + 4096
        omega
      · have payload := bounded bytes source srcPort delivers
        show 3072 + bytes.length ≤ 0 + 4096
        omega

def udpFrame (first : UInt8) (datagram : List UInt8) : List UInt8 :=
  List.replicate 12 0 ++ ([0x08, 0x00, first] : List UInt8) ++ List.replicate 8 0 ++
  ([17, 0, 0, 10, 0, 2, 2] : List UInt8) ++
    ourIp ++ datagram

def datagramOf (payload : List UInt8) : List UInt8 :=
  ([0x23, 0x28, 0x1F, 0x90, highByte (UInt16.ofNat (8 + payload.length)),
    (UInt16.ofNat (8 + payload.length)).toUInt8, 0, 0] :
    List UInt8) ++ payload

def listener : Statics := { Statics.initial with boundPort := 8080, boundEp := 13 }

def pageWith (packet : List UInt8) : Page := Base.Buffer.write (fun _ => 0) Area.rx.offset packet

theorem pageWith_read {packet : List UInt8} (short : packet.length ≤ 1518) :
    (pageWith packet).read Area.rx.offset (rxParcel packet).msg.rsi.toNat = some packet := by
  have length : (UInt64.ofNat packet.length).toNat = packet.length :=
    UInt64.toNat_ofNat_of_lt (Nat.lt_of_le_of_lt short (by decide))
  show (pageWith packet).read Area.rx.offset (UInt64.ofNat packet.length).toNat = some packet
  rw [length]
  apply Base.Buffer.read_write_same
  show 0 + packet.length ≤ 4096
  omega

/-- Three bytes for the bound application. -/
theorem reception_contained_short :
    ReceptionContained listener (rxParcel (udpFrame 0x45 (datagramOf [1, 2, 3])))
      (pageWith (udpFrame 0x45 (datagramOf [1, 2, 3]))) := by
  apply (reception_contained_iff listener _ (rxParcel (udpFrame 0x45 (datagramOf [1, 2, 3]))) rfl (by decide)).mpr
  intro packet read
  obtain rfl := Option.some.inj ((pageWith_read (by decide)).symm.trans read)
  exact fun _ _ _ => ⟨by decide, fun _ => by decide⟩

/-- A header of sixty bytes in a packet of twenty panics; a payload of 1025 bytes leaves the page. -/
theorem reception_escapes :
    ¬ ReceptionContained listener (rxParcel (udpFrame 0x4F [])) (pageWith (udpFrame 0x4F [])) ∧
    (udpFrame 0x45 (datagramOf (List.replicate 1025 0))).length = 1067 ∧
    ¬ ReceptionContained listener (rxParcel (udpFrame 0x45 (datagramOf (List.replicate 1025 0))))
      (pageWith (udpFrame 0x45 (datagramOf (List.replicate 1025 0)))) := by
  refine ⟨?_, by decide +kernel, ?_⟩
  · rintro ⟨packet, _, read, inside, _⟩
    obtain rfl := Option.some.inj ((pageWith_read (by decide)).symm.trans read)
    have fails : Checked.handlePacket listener (udpFrame 0x4F []) = none := by decide
    cases fails.symm.trans inside
  · rintro ⟨packet, _, read, _, copies⟩
    obtain rfl := Option.some.inj ((pageWith_read (by decide +kernel)).symm.trans read)
    have copied : (Service.handle listener (udpFrame 0x45 (datagramOf (List.replicate 1025 0)))).copies =
        some (.app, List.replicate 1025 0) := by decide +kernel
    exact absurd (copies _ _ copied).2 (by decide +kernel)

/-! ## Requests to send -/

/-- The service drops the request or reads the payload from the page and sends a frame it put
there, apart from the payload, with lengths that fit their fields and a buffer of the NIC. -/
def SendContained (statics : Statics) (parcel : Parcel) (page : Page) : Prop :=
  Service.dispatch statics parcel page = ⟨none, .listening statics⟩ ∨
  ∃ payload frame length,
    Service.dispatch statics parcel page = ⟨some (.tx, frame), .transmitting statics length frame⟩ ∧
    page.read Area.app.offset parcel.msg.r8.toNat = some payload ∧
    Region.Within ⟨Area.app.offset, payload.length⟩ wholePage ∧ Region.Within ⟨Area.tx.offset, frame.length⟩ wholePage ∧
    Region.Disjoint ⟨Area.app.offset, payload.length⟩ ⟨Area.tx.offset, frame.length⟩ ∧
    20 + 8 + parcel.msg.r8.toNat < 65536 ∧ 8 + parcel.msg.r8.toNat < 65536 ∧
    length.toNat = frame.length ∧ length.toNat ≤ 2048

theorem dispatch_send {statics : Statics} {parcel : Parcel} {page : Page} (asked : parcel.msg.rdi = msgUdpSend) :
    Service.dispatch statics parcel page =
      Service.sendUdp statics parcel.msg.rsi.toUInt32 parcel.msg.rdx.toUInt16 parcel.msg.r10.toUInt16
      parcel.msg.r8 page := by
  have other : msgUdpSend ≠ msgNetRx ∧ msgUdpSend ≠ msgNetTxAck ∧ msgUdpSend ≠ msgUdpBind := by decide
  unfold Service.dispatch
  dsimp only
  rw [asked, if_neg other.1, if_neg other.2.1, if_neg other.2.2, if_pos rfl]

/-- What a resolved gateway makes of a request that does not end in a panic or a fault. -/
theorem sendUdp_sends {statics : Statics} {destIp : UInt32} {destPort srcPort : UInt16} {payloadLen : UInt64}
    {page : Page} {frame : List UInt8} {length : UInt64}
    (sent : Service.sendUdp statics destIp destPort srcPort payloadLen page =
      ⟨some (.tx, frame), .transmitting statics length frame⟩) : frame.length = 42 + payloadLen.toNat := by
  unfold Service.sendUdp at sent
  split at sent
  · dsimp only at sent
    split at sent
    · cases congrArg Turn.next sent
    · split at sent
      next payload read =>
        have copied := congrArg Turn.copies sent
        cases copied
        rw [List.length_append, udpHeader_length, Base.Buffer.length_of_read read]
      · cases congrArg Turn.next sent
  · cases congrArg Turn.next sent

theorem sendUdp_resolved_copies {statics : Statics} {destIp : UInt32} {destPort srcPort : UInt16} {payloadLen : UInt64}
    {page : Page} (resolved : statics.gatewayMacResolved = true) :
    (Service.sendUdp statics destIp destPort srcPort payloadLen page).copies ≠ none := by
  unfold Service.sendUdp
  grind

/-- The first byte of a long payload is also a byte of its frame. -/
theorem sendUdp_overlaps {statics : Statics} {destIp : UInt32} {destPort srcPort : UInt16} {payloadLen : UInt64}
    {page : Page} {payload frame : List UInt8} {length : UInt64}
    (sent : Service.sendUdp statics destIp destPort srcPort payloadLen page =
      ⟨some (.tx, frame), .transmitting statics length frame⟩)
    (read : page.read Area.app.offset payloadLen.toNat = some payload) (long : 982 < payloadLen.toNat) :
    ¬ Region.Disjoint ⟨Area.app.offset, payload.length⟩ ⟨Area.tx.offset, frame.length⟩ := by
  have own := Base.Buffer.length_of_read read
  have total := sendUdp_sends sent
  intro apart
  apply apart 3072
  · exact ⟨Nat.le_refl _, show 3072 < 3072 + payload.length by omega⟩
  · exact ⟨show 2048 ≤ 3072 by omega, show 3072 < 2048 + frame.length by omega⟩

/-- A request is contained if and only if it is dropped for want of the gateway's address or
asks for at most 982 bytes: from 983 on the frame reaches into the payload it copies. -/
theorem send_contained_iff (statics : Statics) (page : Page) (parcel : Parcel) (asked : parcel.msg.rdi = msgUdpSend) :
    SendContained statics parcel page ↔ (statics.gatewayMacResolved = true → parcel.msg.r8.toNat ≤ 982) := by
  unfold SendContained
  rw [dispatch_send asked]
  constructor
  · intro contained resolved
    rcases contained with dropped | ⟨payload, frame, length, sent, read, _, _, apart, _⟩
    · exact absurd (congrArg Turn.copies dropped) (sendUdp_resolved_copies resolved)
    · by_contra long
      exact sendUdp_overlaps sent read (Nat.not_le.mp long) apart
  · intro short
    by_cases resolved : statics.gatewayMacResolved = true
    · right
      specialize short resolved
      have inside : Area.app.offset + parcel.msg.r8.toNat ≤ 4096 := by
        show 3072 + _ ≤ 4096
        omega
      obtain ⟨payload, read⟩ : ∃ payload, page.read Area.app.offset parcel.msg.r8.toNat = some payload :=
        ⟨_, dif_pos inside⟩
      have own := Base.Buffer.length_of_read read
      have same : parcel.msg.r8 = UInt64.ofNat payload.length := by rw [own, UInt64.ofNat_toNat]
      have sent := sendUdp_resolved payload resolved (by omega) (by rw [own]; exact read) parcel.msg.rsi.toUInt32
        parcel.msg.rdx.toUInt16 parcel.msg.r10.toUInt16
      rw [← same] at sent
      have total := sendUdp_sends sent
      have announced : (14 + (20 + 8 + parcel.msg.r8)).toNat = 42 + parcel.msg.r8.toNat := by
        rw [UInt64.toNat_add, UInt64.toNat_add]
        show (14 + (28 + parcel.msg.r8.toNat) % 2 ^ 64) % 2 ^ 64 = _
        omega
      refine ⟨payload, _, _, sent, read, ⟨Nat.zero_le _, ?_⟩, ⟨Nat.zero_le _, ?_⟩, ?_, by omega, by omega, ?_, by omega⟩
      · show 3072 + payload.length ≤ 0 + 4096
        omega
      · show 2048 + List.length _ ≤ 0 + 4096
        omega
      · apply Region.Disjoint.symm
        apply Region.disjoint_of_le
        show 2048 + List.length _ ≤ 3072
        omega
      · rw [announced, total]
    · left
      unfold Service.sendUdp
      rw [if_neg resolved]

def sendParcel (payloadLen : UInt64) : Parcel := ⟨⟨msgUdpSend, 0x0A00020F, 8080, 9000, payloadLen, 0⟩, []⟩

theorem send_contained_longest : SendContained sampleSender (sendParcel 982) samplePage :=
  (send_contained_iff sampleSender samplePage (sendParcel 982) rfl).mpr fun _ => by decide

/-- With 983 bytes source and destination of the copy overlap, with 1025 the service faults
at the end of the page, with 1459 the slice panics. -/
theorem long_sends_escape : ¬ SendContained sampleSender (sendParcel 983) samplePage ∧
    (Service.dispatch sampleSender (sendParcel 1025) samplePage).next = .gone ∧
    (Service.dispatch sampleSender (sendParcel 1459) samplePage).next = .gone := by
  refine ⟨?_, by decide +kernel, by decide +kernel⟩
  unfold SendContained
  rw [dispatch_send rfl]
  rintro (dropped | ⟨payload, frame, length, sent, read, _, _, apart, _⟩)
  · exact absurd (congrArg Turn.copies dropped) (sendUdp_resolved_copies rfl)
  · exact sendUdp_overlaps sent read (by decide) apart

end ElseOS.Network
