import ElseOS.Task.Thread

/-! What the network service makes of a packet.

The handlers look at the bytes of a packet and at the service's statics. They ignore the
packet, have a frame transmitted, have a payload delivered to the bound application, or
panic on a slice out of range. -/

set_option autoImplicit false

namespace ElseOS.Network

def msgNetRx : UInt64 := 100
def msgNetTx : UInt64 := 101
def msgNetTxAck : UInt64 := 102
def msgUdpBind : UInt64 := 103
def msgUdpSend : UInt64 := 104
def msgUdpRecv : UInt64 := 105

def ourIp : List UInt8 := [10, 0, 2, 15]
def gatewayIp : List UInt8 := [10, 0, 2, 2]
def broadcastIp : List UInt8 := [255, 255, 255, 255]

structure Mac where
  m0 : UInt8
  m1 : UInt8
  m2 : UInt8
  m3 : UInt8
  m4 : UInt8
  m5 : UInt8
  deriving DecidableEq, Repr

namespace Mac

def zero : Mac := ⟨0, 0, 0, 0, 0, 0⟩

def bytes (mac : Mac) : List UInt8 := [mac.m0, mac.m1, mac.m2, mac.m3, mac.m4, mac.m5]

def word (mac : Mac) : UInt64 :=
  (mac.m0.toUInt64 <<< 40) ||| (mac.m1.toUInt64 <<< 32) ||| (mac.m2.toUInt64 <<< 24) ||| (mac.m3.toUInt64 <<< 16) |||
    (mac.m4.toUInt64 <<< 8) ||| mac.m5.toUInt64

def ofWord (value : UInt64) : Mac :=
  ⟨(value >>> 40).toUInt8, (value >>> 32).toUInt8, (value >>> 24).toUInt8, (value >>> 16).toUInt8,
    (value >>> 8).toUInt8, value.toUInt8⟩

end Mac

/-- The statics of the service but for the address of the shared buffer. -/
structure Statics where
  ourMac : Mac
  gatewayMac : Mac
  gatewayMacResolved : Bool
  boundPort : UInt16
  boundEp : UInt64
  deriving DecidableEq, Repr

def Statics.initial : Statics := ⟨.zero, .zero, false, 0, 0⟩

inductive Reaction where
  | ignore
  | transmit (frame : List UInt8)
  | deliver (payload : List UInt8) (srcIp : UInt32) (srcPort : UInt16)
  | panic
  deriving DecidableEq, Repr

def byteAt (packet : List UInt8) (i : Nat) : UInt8 := packet.getD i 0

def slice (packet : List UInt8) (first last : Nat) : List UInt8 := (packet.drop first).take (last - first)

def wordAt (packet : List UInt8) (i : Nat) : UInt16 :=
  ((byteAt packet i).toUInt16 <<< 8) ||| (byteAt packet (i + 1)).toUInt16

def highByte (value : UInt16) : UInt8 := (value >>> 8).toUInt8

def beBytes (value : UInt32) : List UInt8 :=
  [(value >>> 24).toUInt8, (value >>> 16).toUInt8, (value >>> 8).toUInt8, value.toUInt8]

def ofBeBytes (bytes : List UInt8) : UInt32 :=
  ((byteAt bytes 0).toUInt32 <<< 24) ||| ((byteAt bytes 1).toUInt32 <<< 16) ||| ((byteAt bytes 2).toUInt32 <<< 8) |||
    (byteAt bytes 3).toUInt32

/-! ## The checksum -/

def sumWords (sum : UInt32) : List UInt8 → UInt32
  | [] => sum
  | [last] => sum + (last.toUInt32 <<< 8)
  | high :: low :: rest => sumWords (sum + ((high.toUInt32 <<< 8) ||| low.toUInt32)) rest

/-- The loop that folds carries back in, for at most the given number of rounds. -/
def foldCarries : Nat → UInt32 → UInt32
  | 0, sum => sum
  | rounds + 1, sum => if sum >>> 16 ≠ 0 then foldCarries rounds ((sum &&& (0xFFFF : UInt32)) + (sum >>> 16)) else sum

def computeChecksum (data : List UInt8) : UInt16 := ~~~(foldCarries 2 (sumWords 0 data)).toUInt16

theorem toNat_foldRound (value : UInt32) :
    ((value &&& (0xFFFF : UInt32)) + (value >>> 16)).toNat = value.toNat % 65536 + value.toNat / 65536 := by
  have low : (value &&& (0xFFFF : UInt32)).toNat = value.toNat % 65536 := by
    rw [UInt32.toNat_and]
    exact Nat.and_two_pow_sub_one_eq_mod _ 16
  have high : (value >>> 16).toNat = value.toNat / 65536 := by
    rw [UInt32.toNat_shiftRight, Nat.shiftRight_eq_div_pow]
    rfl
  have bound := value.toNat_lt
  rw [UInt32.toNat_add, low, high]
  omega

theorem shifted_eq_zero_iff (value : UInt32) : value >>> 16 = 0 ↔ value.toNat < 65536 := by
  rw [← UInt32.toNat_inj, UInt32.toNat_shiftRight, Nat.shiftRight_eq_div_pow]
  have : value.toNat / 2 ^ ((16 : UInt32).toNat % 32) = value.toNat / 65536 := rfl
  rw [this]
  have : (0 : UInt32).toNat = 0 := rfl
  omega

/-- The carries are folded in: a sum modulo 65535, with 65535 itself for every other multiple than zero. -/
theorem toNat_foldCarries (sum : UInt32) :
    (foldCarries 2 sum).toNat = if sum.toNat = 0 then 0 else (sum.toNat - 1) % 65535 + 1 := by
  have bound := sum.toNat_lt
  simp only [foldCarries, ne_eq, shifted_eq_zero_iff, ite_not]
  split
  · split <;> omega
  · split
    · rw [toNat_foldRound] at *
      split <;> omega
    · rw [toNat_foldRound] at *
      rw [toNat_foldRound]
      split <;> omega

theorem foldCarries_settled (sum : UInt32) : foldCarries 2 sum >>> 16 = 0 := by
  rw [shifted_eq_zero_iff, toNat_foldCarries]
  split <;> omega

/-! ## Frames the service composes -/

def arpHeader (opcode : UInt8) : List UInt8 := [0x08, 0x06, 0x00, 0x01, 0x08, 0x00, 0x06, 0x04, 0x00, opcode]

def arpRequest (ourMac : Mac) : List UInt8 :=
  List.replicate 6 0xFF ++ ourMac.bytes ++ arpHeader 1 ++ ourMac.bytes ++ ourIp ++ List.replicate 6 0x00 ++ gatewayIp

def arpReply (ourMac : Mac) (packet : List UInt8) : List UInt8 :=
  slice packet 8 14 ++ ourMac.bytes ++ arpHeader 2 ++ ourMac.bytes ++ ourIp ++ slice packet 8 14 ++ slice packet 14 18

def ipHeader (destIp : UInt32) (totalLen : UInt64) (checksum : UInt16) : List UInt8 :=
  ([0x45, 0x00, (totalLen >>> 8).toUInt8, totalLen.toUInt8, 0x00, 0x00, 0x40, 0x00, 64, 17, highByte checksum,
    checksum.toUInt8] : List UInt8) ++ ourIp ++ beBytes destIp

def udpHeader (statics : Statics) (destIp : UInt32) (destPort srcPort : UInt16) (payloadLen : UInt64) : List UInt8 :=
  let totalLen := 20 + 8 + payloadLen
  let udpLen := 8 + payloadLen
  statics.gatewayMac.bytes ++ statics.ourMac.bytes ++ ([0x08, 0x00] : List UInt8) ++
    ipHeader destIp totalLen (computeChecksum (ipHeader destIp totalLen 0)) ++
    ([highByte srcPort, srcPort.toUInt8, highByte destPort, destPort.toUInt8, (udpLen >>> 8).toUInt8,
      udpLen.toUInt8, 0, 0] :
      List UInt8)

theorem arpRequest_length (ourMac : Mac) : (arpRequest ourMac).length = 42 := rfl

theorem udpHeader_length (statics : Statics) (destIp : UInt32) (destPort srcPort : UInt16) (payloadLen : UInt64) :
    (udpHeader statics destIp destPort srcPort payloadLen).length = 42 := rfl

theorem slice_length {packet : List UInt8} {first last : Nat} (inside : last ≤ packet.length) (ordered : first ≤ last) :
    (slice packet first last).length = last - first := by
  simp only [slice, List.length_take, List.length_drop]
  omega

theorem arpReply_length (ourMac : Mac) {packet : List UInt8} (long : 28 ≤ packet.length) :
    (arpReply ourMac packet).length = 42 := by
  simp only [arpReply, List.length_append, slice_length (by omega : 14 ≤ packet.length) (by omega : 8 ≤ 14),
    slice_length (by omega : 18 ≤ packet.length) (by omega : 14 ≤ 18)]
  rfl

/-! ## The handlers -/

def handleArp (statics : Statics) (packet : List UInt8) : Statics × Reaction :=
  if packet.length < 28 then (statics, .ignore)
  else if wordAt packet 6 = 2 then
    if slice packet 14 18 = gatewayIp then
      let mac : Mac := ⟨byteAt packet 8, byteAt packet 9, byteAt packet 10, byteAt packet 11, byteAt packet 12,
        byteAt packet 13⟩
      ({ statics with gatewayMac := mac, gatewayMacResolved := true }, .ignore)
    else (statics, .ignore)
  else if wordAt packet 6 = 1 then
    if slice packet 24 28 = ourIp then (statics, .transmit (arpReply statics.ourMac packet)) else (statics, .ignore)
  else (statics, .ignore)

def handleUdp (statics : Statics) (packet srcIp : List UInt8) : Reaction :=
  if packet.length < 8 then .ignore
  else
    let length := (wordAt packet 4).toNat
    if length > packet.length ∨ length < 8 then .ignore
    else if statics.boundPort = wordAt packet 2 ∧ statics.boundEp ≠ 0 then
      .deliver (slice packet 8 length) (ofBeBytes srcIp) (wordAt packet 0)
    else .ignore

def handleIpv4 (statics : Statics) (packet : List UInt8) : Reaction :=
  if packet.length < 20 then .ignore
  else
    let ihl := (byteAt packet 0 &&& 0x0F).toNat * 4
    let destIp := slice packet 16 20
    if destIp ≠ ourIp ∧ destIp ≠ broadcastIp then .ignore
    else if byteAt packet 9 = 17 then
      if ihl > packet.length then .panic else handleUdp statics (packet.drop ihl) (slice packet 12 16)
    else .ignore

def handlePacket (statics : Statics) (packet : List UInt8) : Statics × Reaction :=
  if packet.length ≥ 14 then
    if wordAt packet 12 = 0x0806 then handleArp statics (packet.drop 14)
    else if wordAt packet 12 = 0x0800 then (statics, handleIpv4 statics (packet.drop 14))
    else (statics, .ignore)
  else (statics, .ignore)

theorem handleArp_transmits {statics : Statics} {packet frame : List UInt8}
    (handled : (handleArp statics packet).2 = .transmit frame) : frame.length = 42 := by
  unfold handleArp at handled
  split at handled
  · simp at handled
  next long =>
    split at handled
    · split at handled <;> simp at handled
    · split at handled
      · split at handled
        · obtain rfl : arpReply statics.ourMac packet = frame := by simpa using handled
          exact arpReply_length _ (Nat.not_lt.mp long)
        · simp at handled
      · simp at handled

theorem handleUdp_transmits_nothing {statics : Statics} {packet srcIp frame : List UInt8} :
    handleUdp statics packet srcIp ≠ .transmit frame := by
  unfold handleUdp
  grind

theorem handleIpv4_transmits_nothing {statics : Statics} {packet frame : List UInt8} :
    handleIpv4 statics packet ≠ .transmit frame := by
  unfold handleIpv4
  grind [handleUdp_transmits_nothing]

theorem handlePacket_transmits {statics : Statics} {packet frame : List UInt8}
    (handled : (handlePacket statics packet).2 = .transmit frame) : frame.length = 42 := by
  unfold handlePacket at handled
  split at handled
  · split at handled
    · exact handleArp_transmits handled
    · split at handled
      · exact absurd handled handleIpv4_transmits_nothing
      · simp at handled
  · simp at handled

end ElseOS.Network
