import Mathlib.Data.Fintype.Basic
import ElseOS.Services.Network

/-! Whether the packet page still holds what a message announces.

A message about an area of the page is under way from the copy that fills the area until its
consumer has read it. Each area has one producer, and a producer whose send waits copies
nothing; only a consumer that was handed a message and has not run yet can be overtaken. -/

set_option autoImplicit false

namespace ElseOS.Network

open Base (Command Net Port Protocol Run Status)

variable {App : Type}

def Parcel.area (parcel : Parcel) : Option Area :=
  if parcel.msg.rdi = msgNetRx then
    if parcel.msg.rsi = 0xFFFFFFFF then none else some .rx
  else if parcel.msg.rdi = msgNetTx then some .tx
  else if parcel.msg.rdi = msgUdpRecv then some .app
  else none

def Area.limit : Area → Nat
  | .rx => 2048
  | .tx => 3072
  | .app => 4096

def Area.producer : Area → Party App
  | .rx => .driver
  | .tx | .app => .service

def unread : (party : Party App) → Local party → Option Parcel
  | .transmitter, .received parcel => if parcel.area = some .tx then some parcel else none
  | .service, .received _ parcel => if parcel.area = some .rx then some parcel else none
  | .app _, .received parcel => if parcel.area = some .app then some parcel else none
  | _, _ => none

def prepared : (party : Party App) → Local party → Option Parcel
  | .driver, .announcing packet => some (rxParcel packet)
  | .service, .transmitting _ length frame => some (txParcel length frame)
  | .service, .delivering _ payload srcIp srcPort => some (udpRecvParcel payload srcIp srcPort)
  | _, _ => none

def ReadBack : (party : Party App) → Local party → Prop
  | .transmitter, .acknowledging parcel frame => frame = parcel.wrote
  | .service, .handling _ parcel packet => packet = parcel.wrote
  | .app _, .echoing parcel payload => payload = parcel.wrote
  | _, _ => True

namespace Stack

/-- Every consumer that has read a message's area read the bytes of that message. -/
def Faithful (net : Stack App) : Prop := ∀ party, ReadBack party (net.status party).state

def copies (net : Stack App) (label : Party App × Packet) : Option (Area × List UInt8) :=
  match net.status label.1 with
  | .ready state => (turn label.1 state label.2 net.shared).bind Turn.copies
  | _ => none

/-- A step that copies into an area stays inside it, and no consumer has yet to run for an
earlier message about that area. -/
def Unhurried (net : Stack App) (label : Party App × Packet) : Prop :=
  ∀ area bytes, net.copies label = some (area, bytes) → area.offset + bytes.length ≤ area.limit ∧
    ∀ party parcel, unread party (net.status party).state = some parcel → parcel.area ≠ some area

end Stack

/-! ## Parcels and the page -/

def Intact (page : Page) (parcel : Parcel) : Prop :=
  ∀ area, parcel.area = some area → area.offset + parcel.msg.rsi.toNat ≤ area.limit ∧
    page.read area.offset parcel.msg.rsi.toNat = some parcel.wrote

def holds (party : Party App) (state : Local party) (parcel : Parcel) : Prop :=
  unread party state = some parcel ∨ prepared party state = some parcel

theorem Intact.write {page : Page} {parcel : Parcel} (intact : Intact page parcel) {area : Area} {bytes : List UInt8}
    (fits : area.offset + bytes.length ≤ area.limit) (other : parcel.area ≠ some area) :
    Intact (page.write area.offset bytes) parcel := by
  intro own isOwn
  obtain ⟨inside, held⟩ := intact own isOwn
  have different : own ≠ area := by
    rintro rfl
    exact other isOwn
  refine ⟨inside, ?_⟩
  rw [Base.Buffer.read_write_disjoint, held]
  -- two areas never overlap as long as both stretches stay inside their own
  cases own <;> cases area <;> simp_all [Area.offset, Area.limit] <;> omega

theorem intact_written (page : Page) {parcel : Parcel} {area : Area}
    (only : ∀ other, parcel.area = some other → other = area)
    (length : parcel.msg.rsi.toNat = parcel.wrote.length) (fits : area.offset + parcel.wrote.length ≤ area.limit) :
    Intact (page.write area.offset parcel.wrote) parcel := by
  intro other isOther
  obtain rfl := only other isOther
  rw [length]
  refine ⟨fits, Base.Buffer.read_write_same page ?_⟩
  cases other <;> simp only [Area.offset, Area.limit] at fits ⊢ <;> omega

theorem area_rxParcel {packet : List UInt8} {area : Area} (isArea : (rxParcel packet).area = some area) :
    area = .rx := by
  unfold Parcel.area rxParcel at isArea
  simp only [if_true] at isArea
  split at isArea
  · cases isArea
  · exact (Option.some.inj isArea).symm

theorem prepared_producer {party : Party App} {state : Local party} {parcel : Parcel} {area : Area}
    (isPrepared : prepared party state = some parcel) (isArea : parcel.area = some area) : party = area.producer := by
  cases party with
  | driver =>
    cases state with
    | announcing packet =>
      obtain rfl : rxParcel packet = parcel := Option.some.inj isPrepared
      rw [area_rxParcel isArea]
      rfl
    | _ => cases isPrepared
  | transmitter => cases state <;> cases isPrepared
  | service =>
    cases state with
    | transmitting statics length frame =>
      obtain rfl : txParcel length frame = parcel := Option.some.inj isPrepared
      obtain rfl : Area.tx = area := Option.some.inj isArea
      rfl
    | delivering statics payload srcIp srcPort =>
      obtain rfl : udpRecvParcel payload srcIp srcPort = parcel := Option.some.inj isPrepared
      obtain rfl : Area.app = area := Option.some.inj isArea
      rfl
    | _ => cases isPrepared
  | app name => cases state <;> cases isPrepared

/-! ## One turn of a program -/

structure Announces {Local : Type} (turn : Turn Local) (parcel : Parcel) (area : Area) : Prop where
  copies : turn.copies = some (area, parcel.wrote)
  only : ∀ other, parcel.area = some other → other = area
  length : parcel.msg.rsi.toNat = parcel.wrote.length

/-- What a turn of a party keeps to: it copies only into areas of its own and not while it has
a message prepared; what it prepares announces what it copied; what it reads it reads back. -/
structure KeepsTo (party : Party App) (state : Local party) (page : Page) (turn : Turn (Local party)) : Prop where
  produces : ∀ {area bytes}, turn.copies = some (area, bytes) → party = area.producer
  unprepared : prepared party state = none
  acted : unread party turn.next = none
  announces : ∀ {parcel}, prepared party turn.next = some parcel → ∃ area, Announces turn parcel area
  reads : (∀ parcel, unread party state = some parcel → Intact page parcel) → ReadBack party turn.next

theorem keepsTo_copy (packet : Packet) (page : Page) :
    KeepsTo (.driver : Party App) Driver.polling page (Driver.copy packet.bytes) := by
  have short : packet.bytes.length < 2 ^ 64 := Nat.lt_trans packet.short (by decide)
  constructor
  · intro area bytes copies
    obtain ⟨rfl, rfl⟩ := by simpa [Driver.copy] using copies
    rfl
  · rfl
  · unfold Driver.copy
    split <;> rfl
  · intro parcel isPrepared
    unfold Driver.copy at isPrepared
    split at isPrepared
    · obtain rfl : rxParcel packet.bytes = parcel := Option.some.inj isPrepared
      exact ⟨.rx, rfl, fun other isOther => area_rxParcel isOther, UInt64.toNat_ofNat_of_lt short⟩
    · cases isPrepared
  · intro _
    unfold Driver.copy
    split <;> trivial

theorem keepsTo_take (parcel : Parcel) (page : Page) :
    KeepsTo (.transmitter : Party App) (Transmitter.received parcel) page (Transmitter.take parcel page) := by
  unfold Transmitter.take
  constructor
  · grind
  · rfl
  · grind [unread]
  · grind [prepared]
  · intro intact
    split
    next announced =>
      have isArea : parcel.area = some .tx := by simp [Parcel.area, announced, msgNetTx, msgNetRx]
      have held := (intact parcel (by simp [unread, isArea]) .tx isArea).2
      rw [held]
      rfl
    next => trivial

theorem keepsTo_look (name : App) (parcel : Parcel) (page : Page) :
    KeepsTo (.app name : Party App) (Application.received parcel) page (Application.look parcel page) := by
  unfold Application.look
  constructor
  · grind
  · rfl
  · grind [unread]
  · grind [prepared]
  · intro intact
    split
    next announced =>
      have isArea : parcel.area = some .app := by simp [Parcel.area, announced, msgUdpRecv, msgNetTx, msgNetRx]
      have held := (intact parcel (by simp [unread, isArea]) .app isArea).2
      rw [held]
      rfl
    next => trivial

section Service

variable {state : Service} {page : Page} (unprepared : prepared (.service : Party App) state = none)

include unprepared

theorem keepsTo_listen (statics : Statics) : KeepsTo (.service : Party App) state page ⟨none, .listening statics⟩ where
  produces copies := by cases copies
  unprepared := unprepared
  acted := rfl
  announces isPrepared := by cases isPrepared
  reads _ := trivial

theorem keepsTo_die {copies : Option (Area × List UInt8)} (own : ∀ bytes, copies ≠ some (.rx, bytes)) :
    KeepsTo (.service : Party App) state page ⟨copies, .gone⟩ where
  produces := by
    rintro (_ | _ | _) bytes isCopy
    · exact absurd isCopy (own bytes)
    · rfl
    · rfl
  unprepared := unprepared
  acted := rfl
  announces isPrepared := by cases isPrepared
  reads _ := trivial

theorem keepsTo_transmit (statics : Statics) {length : UInt64} {frame : List UInt8}
    (same : length.toNat = frame.length) :
    KeepsTo (.service : Party App) state page ⟨some (.tx, frame), .transmitting statics length frame⟩ where
  produces copies := by
    obtain ⟨rfl, _⟩ := by simpa using copies
    rfl
  unprepared := unprepared
  acted := rfl
  announces isPrepared := by
    obtain rfl := Option.some.inj isPrepared
    exact ⟨.tx, rfl, fun other isOther => (Option.some.inj isOther).symm, same⟩
  reads _ := trivial

theorem keepsTo_deliver (statics : Statics) {payload : List UInt8} (srcIp : UInt32) (srcPort : UInt16)
    (inside : Area.app.offset + payload.length ≤ 4096) :
    KeepsTo (.service : Party App) state page ⟨some (.app, payload), .delivering statics payload srcIp srcPort⟩ where
  produces copies := by
    obtain ⟨rfl, _⟩ := by simpa using copies
    rfl
  unprepared := unprepared
  acted := rfl
  announces isPrepared := by
    obtain rfl := Option.some.inj isPrepared
    have short : payload.length < 2 ^ 64 := by omega
    exact ⟨.app, rfl, fun other isOther => (Option.some.inj isOther).symm, UInt64.toNat_ofNat_of_lt short⟩
  reads _ := trivial

/-- The length `send_udp` announces is that of the frame it wrote. -/
theorem keepsTo_sendUdp (statics : Statics) (destIp : UInt32) (destPort srcPort : UInt16) (payloadLen : UInt64) :
    KeepsTo (.service : Party App) state page (Service.sendUdp statics destIp destPort srcPort payloadLen page) := by
  unfold Service.sendUdp
  split
  · dsimp only
    split
    · exact keepsTo_die unprepared (by simp)
    next room =>
      split
      next payload reads =>
        apply keepsTo_transmit unprepared
        rw [List.length_append, udpHeader_length, Base.Buffer.length_of_read reads]
        -- the slice check passed, so none of the sums below wraps
        have bounded : payloadLen.toNat ≤ 1458 := by
          simp only [gt_iff_lt, not_or, UInt64.not_lt, UInt64.le_iff_toNat_le, UInt64.toNat_add] at room
          have := payloadLen.toNat_lt
          have : (42 : UInt64).toNat = 42 := rfl
          have : (1500 : UInt64).toNat = 1500 := rfl
          omega
        simp only [UInt64.toNat_add]
        have : (14 : UInt64).toNat = 14 := rfl
        have : (20 : UInt64).toNat = 20 := rfl
        have : (8 : UInt64).toNat = 8 := rfl
        omega
      next => exact keepsTo_die unprepared (by simp)
  · exact keepsTo_listen unprepared statics

end Service

theorem keepsTo_dispatch (statics : Statics) (parcel : Parcel) (page : Page) :
    KeepsTo (.service : Party App) (Service.received statics parcel) page (Service.dispatch statics parcel page) := by
  unfold Service.dispatch
  dsimp only
  split
  next isRx =>
    split
    · exact keepsTo_transmit rfl _ (arpRequest_length _).symm
    next isPacket =>
      have isArea : parcel.area = some .rx := by simp [Parcel.area, isRx, isPacket]
      split
      next packet reads =>
        constructor
        · simp
        · rfl
        · rfl
        · simp [prepared]
        · intro intact
          have held := (intact parcel (by simp [unread, isArea]) .rx isArea).2
          exact Option.some.inj (reads.symm.trans held)
      next => exact keepsTo_die rfl (by simp)
  · split
    · exact keepsTo_listen rfl _
    · split
      · exact keepsTo_listen rfl _
      · split
        · exact keepsTo_sendUdp rfl ..
        · exact keepsTo_listen rfl _

theorem keepsTo_handle (statics : Statics) (parcel : Parcel) (packet : List UInt8) (page : Page) :
    KeepsTo (.service : Party App) (Service.handling statics parcel packet) page (Service.handle statics packet) := by
  unfold Service.handle
  split
  next => exact keepsTo_listen rfl _
  next frame handled =>
    have length := handlePacket_transmits (congrArg Prod.snd handled)
    exact keepsTo_transmit rfl _ length.symm
  next payload srcIp srcPort handled =>
    split
    next inside => exact keepsTo_deliver rfl _ _ _ inside
    next => exact keepsTo_die rfl (by simp)
  next => exact keepsTo_die rfl (by simp)

theorem keepsTo_turn {party : Party App} {state : Local party} {packet : Packet} {page : Page}
    {taken : Turn (Local party)} (takes : turn party state packet page = some taken) :
    KeepsTo party state page taken := by
  cases party with
  | driver =>
    cases state with
    | polling =>
      obtain rfl := Option.some.inj takes
      exact keepsTo_copy packet page
    | _ => cases takes
  | transmitter =>
    cases state with
    | received parcel =>
      obtain rfl := Option.some.inj takes
      exact keepsTo_take parcel page
    | _ => cases takes
  | service =>
    cases state with
    | received statics parcel =>
      obtain rfl := Option.some.inj takes
      exact keepsTo_dispatch statics parcel page
    | handling statics parcel bytes =>
      obtain rfl := Option.some.inj takes
      exact keepsTo_handle statics parcel bytes page
    | _ => cases takes
  | app name =>
    cases state with
    | received parcel =>
      obtain rfl := Option.some.inj takes
      exact keepsTo_look name parcel page
    | _ => cases takes

/-! ## Calls -/

structure Settles (party : Party App) (next : Local party) : Prop where
  acted : unread party next = none
  unprepared : prepared party next = none
  readBack : ReadBack party next

theorem call_sends {party : Party App} {state next : Local party} {page : Page} {ep : Endpoint} {parcel : Parcel}
    (sends : call party state page = some (.send ep parcel next)) :
    (prepared party state = some parcel ∨ parcel.area = none) ∧ Settles party next := by
  cases party with
  | driver =>
    cases state with
    | starting mac =>
      obtain ⟨_, rfl, rfl⟩ := by simpa [call] using sends
      exact ⟨.inr rfl, rfl, rfl, trivial⟩
    | announcing packet =>
      obtain ⟨_, rfl, rfl⟩ := by simpa [call] using sends
      exact ⟨.inl rfl, rfl, rfl, trivial⟩
    | _ => simp [call] at sends
  | transmitter =>
    cases state with
    | acknowledging _ _ =>
      obtain ⟨_, rfl, rfl⟩ := by simpa [call] using sends
      exact ⟨.inr rfl, rfl, rfl, trivial⟩
    | _ => simp [call] at sends
  | service =>
    cases state with
    | transmitting statics length frame =>
      obtain ⟨_, rfl, rfl⟩ := by simpa [call] using sends
      exact ⟨.inl rfl, rfl, rfl, trivial⟩
    | delivering statics payload srcIp srcPort =>
      simp only [call] at sends
      split at sends
      · obtain ⟨_, rfl, rfl⟩ := by simpa using sends
        exact ⟨.inl rfl, rfl, rfl, trivial⟩
      · simp at sends
    | _ => simp [call] at sends
  | app name =>
    cases state with
    | starting =>
      obtain ⟨_, rfl, rfl⟩ := by simpa [call] using sends
      exact ⟨.inr rfl, rfl, rfl, trivial⟩
    | echoing _ _ =>
      obtain ⟨_, rfl, rfl⟩ := by simpa [call] using sends
      exact ⟨.inr rfl, rfl, rfl, trivial⟩
    | _ => simp [call] at sends

theorem call_computes {party : Party App} {state next : Local party} {page after : Page}
    (computes : call party state page = some (.compute next after)) : after = page ∧ Settles party next := by
  cases party with
  | service =>
    cases state with
    | delivering statics payload srcIp srcPort =>
      simp only [call] at computes
      split at computes
      · simp at computes
      · obtain ⟨rfl, rfl⟩ := by simpa using computes
        exact ⟨rfl, rfl, rfl, trivial⟩
    | _ => simp [call] at computes
  | _ => cases state <;> simp [call] at computes

theorem command_computes {party : Party App} {state next : Local party} {packet : Packet} {page after : Page}
    (computes : protocol.command party state packet page = some (.compute next after)) :
    (∃ taken, turn party state packet page = some taken ∧ next = taken.next ∧ after = taken.apply page) ∨
      turn party state packet page = none ∧ after = page ∧ Settles party next := by
  unfold protocol at computes
  dsimp only at computes
  split at computes
  next taken takes =>
    obtain ⟨rfl, rfl⟩ := by simpa using computes
    exact .inl ⟨taken, takes, rfl, rfl⟩
  next takes => exact .inr ⟨takes, call_computes computes⟩

theorem command_sends {party : Party App} {state next : Local party} {packet : Packet} {page : Page} {ep : Endpoint}
    {parcel : Parcel} (sends : protocol.command party state packet page = some (.send ep parcel next)) :
    (prepared party state = some parcel ∨ parcel.area = none) ∧ Settles party next := by
  unfold protocol at sends
  dsimp only at sends
  split at sends
  · simp at sends
  · exact call_sends sends

theorem Settles.holds_nothing {party : Party App} {next : Local party} (settles : Settles party next)
    (parcel : Parcel) :
    ¬ holds party next parcel := by
  rintro (held | held)
  · rw [settles.acted] at held
    cases held
  · rw [settles.unprepared] at held
    cases held

/-- A party that waits for a message gets it unread and has nothing else in hand; a party
that does not is left alone. -/
theorem resume_cases (party : Party App) (state : Local party) (handed : Parcel) :
    protocol.resume party state handed = state ∨
      prepared party (protocol.resume party state handed) = none ∧
      (∀ parcel, unread party (protocol.resume party state handed) = some parcel → parcel = handed) ∧
      ReadBack party (protocol.resume party state handed) := by
  cases party with
  | driver => exact .inl rfl
  | transmitter =>
    cases state with
    | listening => exact .inr ⟨rfl, by grind [protocol, unread], trivial⟩
    | _ => exact .inl rfl
  | service =>
    cases state with
    | listening statics => exact .inr ⟨rfl, by grind [protocol, unread], trivial⟩
    | _ => exact .inl rfl
  | app name =>
    cases state with
    | listening => exact .inr ⟨rfl, by grind [protocol, unread], trivial⟩
    | _ => exact .inl rfl

theorem holds_resume {party : Party App} {state : Local party} {handed parcel : Parcel}
    (held : holds party (protocol.resume party state handed) parcel) : parcel = handed ∨ holds party state parcel := by
  rcases resume_cases party state handed with same | ⟨unprepared, only, _⟩
  · rw [same] at held
    exact .inr held
  · rcases held with held | held
    · exact .inl (only parcel held)
    · rw [unprepared] at held
      cases held

theorem readBack_resume {party : Party App} {state : Local party} {handed : Parcel} (readBack : ReadBack party state) :
    ReadBack party (protocol.resume party state handed) := by
  rcases resume_cases party state handed with same | ⟨_, _, blank⟩
  · rwa [same]
  · exact blank

/-! ## The stack keeps what is under way -/

namespace Stack

structure Kept (net : Stack App) : Prop where
  coherent : net.Coherent
  sourced : ∀ {ep party parcel area}, (party, parcel) ∈ (net.ports ep).queued → parcel.area = some area →
    party = area.producer
  intact : ∀ {parcel}, net.Carried holds parcel → Intact net.shared parcel
  faithful : net.Faithful

theorem kept_start (mac : Mac) (page : Page) : (start mac page : Stack App).Kept where
  coherent := Net.coherent_start _ _
  sourced member := by cases member
  intact := by
    rintro parcel (⟨party, held⟩ | ⟨ep, queued⟩)
    · cases party <;> rcases held with held | held <;> cases held
    · cases queued
  faithful party := by cases party <;> trivial

variable [DecidableEq App] {net after : Stack App} {party : Party App} {packet : Packet}

omit [DecidableEq App] in
/-- While a party copies into an area, no message about it is under way: the party is the
area's producer and is neither about to send nor waiting in a send. -/
theorem Kept.not_announced (kept : net.Kept) (unhurried : net.Unhurried (party, packet)) {state : Local party}
    (ready : net.status party = .ready state) {taken : Turn (Local party)}
    (takes : turn party state packet net.shared = some taken) {area : Area} {bytes : List UInt8}
    (copies : taken.copies = some (area, bytes)) {parcel : Parcel} (carried : net.Carried holds parcel) :
    parcel.area ≠ some area := by
  have keeps := keepsTo_turn takes
  have produces := keeps.produces copies
  have copying : net.copies (party, packet) = some (area, bytes) := by simp [Stack.copies, ready, takes, copies]
  intro isArea
  rcases carried with ⟨other, held | held⟩ | ⟨ep, queued⟩
  -- unread messages are what the condition on the step is about
  · exact (unhurried area bytes copying).2 other parcel held isArea
  -- whoever prepares or queues a message about the area is its producer, which is copying
  · obtain rfl : other = party := (prepared_producer held isArea).trans produces.symm
    rw [ready, Status.state_ready, keeps.unprepared] at held
    cases held
  · obtain ⟨⟨sender, _⟩, member, rfl⟩ := List.mem_map.mp queued
    obtain rfl : sender = party := (kept.sourced member isArea).trans produces.symm
    exact kept.coherent.not_queued (by simp [ready]) ep _ member

omit [DecidableEq App] in
theorem Kept.intact_turn (kept : net.Kept) (unhurried : net.Unhurried (party, packet)) {state : Local party}
    (ready : net.status party = .ready state) {taken : Turn (Local party)}
    (takes : turn party state packet net.shared = some taken) {parcel : Parcel}
    (carried : net.Carried holds parcel ∨ holds party taken.next parcel) : Intact (taken.apply net.shared) parcel := by
  have keeps := keepsTo_turn takes
  have fits : ∀ {area bytes}, taken.copies = some (area, bytes) → area.offset + bytes.length ≤ area.limit := by
    intro area bytes copies
    exact (unhurried area bytes (by simp [Stack.copies, ready, takes, copies])).1
  rcases carried with carried | held | held
  · -- what was under way is about another area
    unfold Turn.apply
    split
    next area bytes copies =>
      have other := kept.not_announced unhurried ready takes copies carried
      exact (kept.intact carried).write (fits copies) other
    next => exact kept.intact carried
  · rw [keeps.acted] at held
    cases held
  · obtain ⟨area, announces⟩ := keeps.announces held
    simp only [Turn.apply, announces.copies]
    exact intact_written net.shared announces.only announces.length (fits announces.copies)

/-- What was under way is not overwritten. -/
theorem Kept.intact_after (kept : net.Kept) (unhurried : net.Unhurried (party, packet))
    (moves : Net.Moves protocol net party packet after) {parcel : Parcel} (carried : net.Carried holds parcel) :
    Intact after.shared parcel := by
  rw [moves.shared]
  split
  next next page computes =>
    obtain ⟨state, ready, commanded⟩ := Net.ready_of_command computes
    rcases command_computes commanded with ⟨taken, takes, rfl, rfl⟩ | ⟨_, rfl, _⟩
    · exact kept.intact_turn unhurried ready takes (.inl carried)
    · exact kept.intact carried
  next => exact kept.intact carried

theorem Kept.step (kept : net.Kept) (unhurried : net.Unhurried (party, packet))
    (taken : net.step protocol (party, packet) = some after) : after.Kept := by
  have moves := Net.moves_of_step taken
  have shared := moves.shared
  constructor
  · exact kept.coherent.step moves
  · intro ep sender parcel area member isArea
    rcases moves.queued member with earlier | ⟨rfl, next, sends⟩
    · exact kept.sourced earlier isArea
    · obtain ⟨state, ready, commanded⟩ := Net.ready_of_command sends
      rcases (command_sends commanded).1 with isPrepared | unannounced
      · exact prepared_producer isPrepared isArea
      · rw [unannounced] at isArea
        cases isArea
  · intro parcel carried
    -- a party that has sent holds nothing, so only a copy or a receive puts a message in its hand
    rcases moves.carried (fun sends held => absurd held ((command_sends sends).2.holds_nothing _)) holds_resume carried
      with before | rfl | ⟨ep, next, sends⟩ | ⟨next, page, computes, held⟩
    · exact kept.intact_after unhurried moves before
    · -- a message that a receive makes up announces nothing
      intro area isArea
      cases isArea
    · obtain ⟨state, ready, commanded⟩ := Net.ready_of_command sends
      rcases (command_sends commanded).1 with isPrepared | unannounced
      · exact kept.intact_after unhurried moves (Net.carried_ready ready (.inr isPrepared))
      · intro area isArea
        rw [unannounced] at isArea
        cases isArea
    · obtain ⟨state, ready, commanded⟩ := Net.ready_of_command computes
      rw [computes] at shared
      rcases command_computes commanded with ⟨taken, takes, rfl, rfl⟩ | ⟨_, _, settles⟩
      · rw [shared]
        exact kept.intact_turn unhurried ready takes (.inr held)
      · exact absurd held (settles.holds_nothing parcel)
  · intro other
    apply moves.states kept.faithful
    · intro next shared computes
      obtain ⟨state, ready, commanded⟩ := Net.ready_of_command computes
      rcases command_computes commanded with ⟨turn, takes, rfl, _⟩ | ⟨_, _, settles⟩
      · apply (keepsTo_turn takes).reads
        intro parcel held
        exact kept.intact (Net.carried_ready ready (.inl held))
      · exact settles.readBack
    · intro ep parcel next sends
      obtain ⟨state, ready, commanded⟩ := Net.ready_of_command sends
      exact (command_sends commanded).2.readBack
    · exact readBack_resume

variable {mac : Mac} {page : Page} {history : List (Stack App × (Party App × Packet))}

instance [Fintype App] (net : Stack App) (label : Party App × Packet) : Decidable (net.Unhurried label) :=
  decidable_of_iff (∀ copy ∈ net.copies label, copy.1.offset + copy.2.length ≤ copy.1.limit ∧
      (∀ parcel ∈ unread .transmitter (net.status .transmitter).state, parcel.area ≠ some copy.1) ∧
      (∀ parcel ∈ unread .service (net.status .service).state, parcel.area ≠ some copy.1) ∧
      ∀ name, ∀ parcel ∈ unread (.app name) (net.status (.app name)).state, parcel.area ≠ some copy.1) (by
    constructor
    · intro clear area bytes copies
      obtain ⟨fits, transmitter, service, apps⟩ := clear (area, bytes) copies
      refine ⟨fits, ?_⟩
      rintro (_ | _ | _ | name) parcel held
      · cases held
      · exact transmitter parcel held
      · exact service parcel held
      · exact apps name parcel held
    · intro unhurried copy copies
      obtain ⟨fits, clear⟩ := unhurried copy.1 copy.2 copies
      exact ⟨fits, clear .transmitter, clear .service, fun name => clear (.app name)⟩)

def datagram : Packet :=
  ⟨List.replicate 12 0 ++ [0x08, 0x00, 0x45, 0, 0, 30, 0, 0, 0, 0, 64, 17, 0, 0] ++ gatewayIp ++ ourIp ++
    [0x04, 0xD2, 0x1F, 0x90, 0, 10, 0, 0, 104, 105] ++ List.replicate 16 0, by decide⟩

end Stack

end ElseOS.Network
