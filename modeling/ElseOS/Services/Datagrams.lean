import ElseOS.Services.Checksum
import ElseOS.Services.Network

/-! A datagram from one stack to another.

`send_udp` composes a frame around the payload, the transmit thread takes it out of the
page and pads it, and a receiving service takes it apart again. -/

set_option autoImplicit false

namespace ElseOS.Network

/-- What `tx_thread` hands to the NIC: the frame, with zeros up to 60 bytes. -/
def Transmitter.padded (frame : List UInt8) : List UInt8 := frame ++ List.replicate (60 - frame.length) 0

/-! ## The header checksum -/

theorem computeChecksum_ipHeader (destIp : UInt32) (totalLen : UInt64) :
    computeChecksum (ipHeader destIp totalLen (computeChecksum (ipHeader destIp totalLen 0))) = 0 := by
  have split (checksum : UInt16) : ipHeader destIp totalLen checksum =
      ([0x45, 0x00, (totalLen >>> 8).toUInt8, totalLen.toUInt8, 0x00, 0x00, 0x40, 0x00, 64, 17] : List UInt8) ++
        [highByte checksum, checksum.toUInt8] ++ (ourIp ++ beBytes destIp) := rfl
  rw [split 0, split]
  exact computeChecksum_filled (Nat.mod_eq_zero_of_dvd ⟨5, rfl⟩) (ourIp ++ beBytes destIp)

/-! ## Taking the frame apart -/

theorem wordAt_append (value : UInt16) (front tail : List UInt8) {i : Nat} (here : front.length = i) :
    wordAt (front ++ highByte value :: value.toUInt8 :: tail) i = value := by
  subst here
  have first : byteAt (front ++ highByte value :: value.toUInt8 :: tail) front.length = highByte value := by
    simp [byteAt]
  have second : byteAt (front ++ highByte value :: value.toUInt8 :: tail) (front.length + 1) = value.toUInt8 := by
    simp [byteAt]
  rw [wordAt, first, second]
  exact Base.Bytes.word16_split value

variable {receiver : Statics} {destPort srcPort : UInt16} {payload tail : List UInt8}

/-- A UDP header for the bound port, the payload, and whatever follows it. -/
theorem handleUdp_deliver (bound : receiver.boundPort = destPort) (endpoint : receiver.boundEp ≠ 0)
    (short : payload.length ≤ 982) (srcIp : List UInt8) :
    handleUdp receiver (([highByte srcPort, srcPort.toUInt8, highByte destPort, destPort.toUInt8,
      ((8 + UInt64.ofNat payload.length) >>> 8).toUInt8, (8 + UInt64.ofNat payload.length).toUInt8, 0,
      0] : List UInt8) ++
      (payload ++ tail)) srcIp = .deliver payload (ofBeBytes srcIp) srcPort := by
  have source : ∀ rest, wordAt (highByte srcPort :: srcPort.toUInt8 :: rest) 0 = srcPort :=
    fun rest => wordAt_append srcPort [] rest rfl
  have target : ∀ a b rest, wordAt (a :: b :: highByte destPort :: destPort.toUInt8 :: rest) 2 = destPort :=
    fun a b rest => wordAt_append destPort [a, b] rest rfl
  have total : (8 + UInt64.ofNat payload.length).toNat = 8 + payload.length := by
    have own : (UInt64.ofNat payload.length).toNat = payload.length :=
      UInt64.toNat_ofNat_of_lt (Nat.lt_of_le_of_lt short (by decide))
    rw [UInt64.toNat_add, own]
    show (8 + payload.length) % 2 ^ 64 = _
    omega
  have length : ∀ a b c d rest, (wordAt (a :: b :: c :: d :: ((8 + UInt64.ofNat payload.length) >>> 8).toUInt8 ::
      (8 + UInt64.ofNat payload.length).toUInt8 :: rest) 4).toNat = 8 + payload.length := by
    intro a b c d rest
    rw [wordAt, Base.Bytes.toNat_word16]
    show ((8 + UInt64.ofNat payload.length) >>> 8).toUInt8.toNat * 256 +
      (8 + UInt64.ofNat payload.length).toUInt8.toNat = _
    rw [UInt64.toNat_toUInt8, UInt64.toNat_toUInt8, UInt64.toNat_shiftRight, Nat.shiftRight_eq_div_pow, total]
    show (8 + payload.length) / 256 % 256 * 256 + (8 + payload.length) % 256 = _
    omega
  have cut : ∀ a b c d e f g h : UInt8,
      slice (a :: b :: c :: d :: e :: f :: g :: h :: (payload ++ tail)) 8 (8 + payload.length) = payload := by
    intro a b c d e f g h
    show ((payload ++ tail).take (8 + payload.length - 8)) = payload
    rw [Nat.add_sub_cancel_left, List.take_left]
  unfold handleUdp
  simp only [List.cons_append, List.nil_append, source, target, length, cut]
  rw [if_neg (by simp), if_neg (by simp; omega), if_pos ⟨bound, endpoint⟩]

theorem handleIpv4_udp {destIp : UInt32} (ours : beBytes destIp = ourIp) (totalLen : UInt64) (checksum : UInt16)
    (datagram : List UInt8) :
    handleIpv4 receiver (ipHeader destIp totalLen checksum ++ datagram) = handleUdp receiver datagram ourIp := by
  have dest : slice (ipHeader destIp totalLen checksum ++ datagram) 16 20 = beBytes destIp := rfl
  have src : slice (ipHeader destIp totalLen checksum ++ datagram) 12 16 = ourIp := rfl
  have body : (ipHeader destIp totalLen checksum ++ datagram).drop 20 = datagram := rfl
  have ihl : (byteAt (ipHeader destIp totalLen checksum ++ datagram) 0 &&& 0x0F).toNat * 4 = 20 := by
    show ((0x45 : UInt8) &&& 0x0F).toNat * 4 = 20
    decide
  have protocol : byteAt (ipHeader destIp totalLen checksum ++ datagram) 9 = 17 := rfl
  have long : (ipHeader destIp totalLen checksum ++ datagram).length = 20 + datagram.length := by
    rw [List.length_append]
    rfl
  unfold handleIpv4
  dsimp only
  rw [dest, src, ihl, protocol, body, ours, if_neg (by omega), if_neg (by simp), if_pos rfl, if_neg (by omega)]

theorem handlePacket_udp {sender : Statics} {destIp : UInt32} (ours : beBytes destIp = ourIp)
    (bound : receiver.boundPort = destPort) (endpoint : receiver.boundEp ≠ 0) (short : payload.length ≤ 982) :
    handlePacket receiver (udpHeader sender destIp destPort srcPort (UInt64.ofNat payload.length) ++
      (payload ++ tail)) =
      (receiver, .deliver payload (ofBeBytes ourIp) srcPort) := by
  have etherType : wordAt (udpHeader sender destIp destPort srcPort (UInt64.ofNat payload.length) ++
    (payload ++ tail)) 12 =
      0x0800 := by
    show (0x08 : UInt8).toUInt16 <<< 8 ||| (0x00 : UInt8).toUInt16 = 0x0800
    decide
  have long :
      14 ≤ (udpHeader sender destIp destPort srcPort (UInt64.ofNat payload.length) ++ (payload ++ tail)).length := by
    rw [List.length_append, udpHeader_length]
    omega
  unfold handlePacket
  rw [if_pos long, etherType, if_neg (by decide), if_pos rfl]
  refine congrArg (Prod.mk receiver) ?_
  exact (handleIpv4_udp ours _ _ _).trans (handleUdp_deliver bound endpoint short ourIp)

/-! ## From stack to stack -/

/-- The packet makes the service copy the payload to the application's area and send it a
message with the length of the payload, the address of the sender and its port. -/
structure Delivered (receiver : Statics) (packet payload : List UInt8) (srcPort : UInt16) : Prop where
  handled : Service.handle receiver packet =
    ⟨some (.app, payload), .delivering receiver payload (ofBeBytes ourIp) srcPort⟩
  copied : ∀ page, ((Service.handle receiver packet).apply page).read Area.app.offset payload.length = some payload
  message : (udpRecvParcel payload (ofBeBytes ourIp) srcPort).msg =
    ⟨msgUdpRecv, UInt64.ofNat payload.length, 0x0A00020F, srcPort.toUInt64, 0, 0⟩

theorem sendUdp_resolved {sender : Statics} {page : Page} (payload : List UInt8)
    (resolved : sender.gatewayMacResolved = true) (short : payload.length ≤ 982)
    (placed : page.read Area.app.offset payload.length = some payload) (destIp : UInt32) (destPort srcPort : UInt16) :
    Service.sendUdp sender destIp destPort srcPort (UInt64.ofNat payload.length) page =
      let frame := udpHeader sender destIp destPort srcPort (UInt64.ofNat payload.length) ++ payload
      ⟨some (.tx, frame), .transmitting sender (14 + (20 + 8 + UInt64.ofNat payload.length)) frame⟩ := by
  have own : (UInt64.ofNat payload.length).toNat = payload.length :=
    UInt64.toNat_ofNat_of_lt (Nat.lt_of_le_of_lt short (by decide))
  have total : (42 + UInt64.ofNat payload.length).toNat = 42 + payload.length := by
    rw [UInt64.toNat_add, own]
    show (42 + payload.length) % 2 ^ 64 = _
    omega
  have inside : ¬ (42 + UInt64.ofNat payload.length > 1500 ∨ 42 > 42 + UInt64.ofNat payload.length) := by
    simp only [GT.gt, UInt64.lt_iff_toNat_lt, total]
    show ¬ (1500 < _ ∨ _ < 42)
    omega
  unfold Service.sendUdp
  dsimp only
  rw [if_pos resolved, if_neg inside, own, placed]

theorem take_frame {sender : Statics} (page : Page) (short : payload.length ≤ 982) (destIp : UInt32)
    (destPort srcPort : UInt16) :
    let frame := udpHeader sender destIp destPort srcPort (UInt64.ofNat payload.length) ++ payload
    let parcel := txParcel (14 + (20 + 8 + UInt64.ofNat payload.length)) frame
    Transmitter.take parcel (page.write Area.tx.offset frame) = ⟨none, .acknowledging parcel frame⟩ := by
  intro frame parcel
  have long : frame.length = 42 + payload.length := by rw [List.length_append, udpHeader_length]
  have own : (UInt64.ofNat payload.length).toNat = payload.length :=
    UInt64.toNat_ofNat_of_lt (Nat.lt_of_le_of_lt short (by decide))
  have requested : (14 + (20 + 8 + UInt64.ofNat payload.length)).toNat = frame.length := by
    rw [UInt64.toNat_add, UInt64.toNat_add, own, long]
    show (14 + (28 + payload.length) % 2 ^ 64) % 2 ^ 64 = _
    omega
  have found : (page.write Area.tx.offset frame).read Area.tx.offset
      (14 + (20 + 8 + UInt64.ofNat payload.length)).toNat = some frame := by
    rw [requested]
    refine page.read_write_same ?_
    show 2048 + frame.length ≤ 4096
    omega
  unfold Transmitter.take
  rw [if_pos (show parcel.msg.rdi = msgNetTx from rfl)]
  dsimp only [parcel, txParcel]
  rw [found]

theorem delivered_of_handled {packet : List UInt8} (short : payload.length ≤ 982)
    (handled : handlePacket receiver packet = (receiver, .deliver payload (ofBeBytes ourIp) srcPort)) :
    Delivered receiver packet payload srcPort := by
  have inside : Area.app.offset + payload.length ≤ 4096 := by
    show 3072 + payload.length ≤ 4096
    omega
  have turn : Service.handle receiver packet =
      ⟨some (.app, payload), .delivering receiver payload (ofBeBytes ourIp) srcPort⟩ := by
    unfold Service.handle
    rw [handled]
    dsimp only
    rw [if_pos inside]
  refine ⟨turn, ?_, rfl⟩
  intro page
  rw [turn]
  exact page.read_write_same inside

/-- The frame `send_udp` composes carries a valid header checksum, and a stack with the
destination's address and a bound application delivers its payload, whatever padding
stands behind it. -/
theorem datagram_delivered (sender receiver : Statics) (page : Page) (payload : List UInt8) (destIp : UInt32)
    (destPort srcPort : UInt16) (resolved : sender.gatewayMacResolved = true) (short : payload.length ≤ 982)
    (placed : page.read Area.app.offset payload.length = some payload) :
    ∃ length frame,
      Service.sendUdp sender destIp destPort srcPort (UInt64.ofNat payload.length) page =
        ⟨some (.tx, frame), .transmitting sender length frame⟩ ∧
      Transmitter.take (txParcel length frame) (page.write Area.tx.offset frame) =
        ⟨none, .acknowledging (txParcel length frame) frame⟩ ∧
      60 ≤ (Transmitter.padded frame).length ∧
      computeChecksum (slice (Transmitter.padded frame) 14 34) = 0 ∧
      (beBytes destIp = ourIp → receiver.boundPort = destPort → receiver.boundEp ≠ 0 →
        ∀ padding, Delivered receiver (Transmitter.padded frame ++ padding) payload srcPort) := by
  refine ⟨_, _, sendUdp_resolved payload resolved short placed destIp destPort srcPort,
    take_frame page short destIp destPort srcPort, ?_, ?_, ?_⟩
  · simp only [Transmitter.padded, List.length_append, List.length_replicate, udpHeader_length]
    omega
  · exact computeChecksum_ipHeader destIp _
  · intro ours bound endpoint padding
    refine delivered_of_handled short ?_
    unfold Transmitter.padded
    rw [List.append_assoc, List.append_assoc]
    exact handlePacket_udp ours bound endpoint short

def sampleSender : Statics := { Statics.initial with gatewayMacResolved := true }

def samplePage : Page := Base.Buffer.write (fun _ => 0) Area.app.offset [1, 2, 3]

theorem samplePage_read : samplePage.read Area.app.offset 3 = some [1, 2, 3] :=
  Base.Buffer.read_write_same (fun _ => 0) (by decide)

/-- Three bytes to port 8080. -/
theorem datagram_delivered_short : ∃ length frame,
    Service.sendUdp sampleSender 0x0A00020F 8080 9000 3 samplePage =
      ⟨some (.tx, frame), .transmitting sampleSender length frame⟩ ∧
    Delivered { Statics.initial with boundPort := 8080, boundEp := 13 } (Transmitter.padded frame) [1, 2, 3] 9000 := by
  obtain ⟨length, frame, sent, _, _, _, delivered⟩ := datagram_delivered sampleSender
    { Statics.initial with boundPort := 8080, boundEp := 13 } samplePage [1, 2, 3] 0x0A00020F 8080 9000 rfl (by decide)
    samplePage_read
  have received := delivered rfl rfl (by decide) []
  rw [List.append_nil] at received
  exact ⟨length, frame, sent, received⟩

/-- Before any application is bound, the port is 0 and so is the endpoint: a datagram to port 0 is dropped. -/
theorem datagram_unbound_dropped : ∃ length frame,
    Service.sendUdp sampleSender 0x0A00020F 0 9000 3 samplePage =
      ⟨some (.tx, frame), .transmitting sampleSender length frame⟩ ∧
    beBytes 0x0A00020F = ourIp ∧ Statics.initial.boundPort = 0 ∧
    ¬ Delivered .initial (Transmitter.padded frame) [1, 2, 3] 9000 := by
  refine ⟨_, _, sendUdp_resolved [1, 2, 3] rfl (by decide) samplePage_read 0x0A00020F 0 9000, rfl, rfl, ?_⟩
  intro delivered
  have dropped : (Service.handle .initial (Transmitter.padded
      (udpHeader sampleSender 0x0A00020F 0 9000 3 ++ [1, 2, 3]))).copies = none := by decide +kernel
  have copies := congrArg Turn.copies delivered.handled
  cases dropped.symm.trans copies

end ElseOS.Network
