import ElseOS.Base.Bytes
import ElseOS.Base.Region
import ElseOS.Services.Rtl8139

/-! The receive ring, byte by byte.

The device writes each frame behind a status and a length at the next multiple of four of a
ring of 8192 bytes, and past its end where the frame does not fit (`WRAP`). `main` finds the
frames by an offset of its own, which it moves on by the lengths it reads there. -/

set_option autoImplicit false

namespace ElseOS.Rtl8139

open Base (Region)
open Network (Page Area)

abbrev RxArea := Base.Buffer 16384 UInt8

/-! ## What the device writes -/

/-- The bytes a frame takes up in the ring: four more than its length, rounded up. -/
def stride (length : Nat) : Nat := (length + 4 + 3) / 4 * 4

structure Record where
  offset : Nat
  status : UInt16
  frame : List UInt8
  deriving DecidableEq, Repr

namespace Record

def length (record : Record) : UInt16 := UInt16.ofNat record.frame.length

def bytes (record : Record) : List UInt8 :=
  record.status.toUInt8 :: (record.status >>> 8).toUInt8 :: record.length.toUInt8 :: (record.length >>> 8).toUInt8 ::
    record.frame

def Sized (record : Record) : Prop := 4 ≤ record.frame.length ∧ record.frame.length ≤ 1522

def Apart (first second : Record) : Prop :=
  first.offset + first.bytes.length ≤ second.offset ∨ second.offset + second.bytes.length ≤ first.offset

def next (record : Record) : Nat := (record.offset + stride record.frame.length) % 8192

instance (record : Record) : Decidable record.Sized := inferInstanceAs (Decidable (_ ∧ _))

instance (first second : Record) : Decidable (first.Apart second) := inferInstanceAs (Decidable (_ ∨ _))

theorem bytes_length (record : Record) : record.bytes.length = 4 + record.frame.length := by
  rw [bytes, List.length_cons, List.length_cons, List.length_cons, List.length_cons]
  omega

end Record

/-! ## What `main` reads -/

def word (area : RxArea) (offset : Nat) : Option UInt16 :=
  match area.read offset 2 with
  | some [low, high] => some ((high.toUInt16 <<< 8) ||| low.toUInt16)
  | _ => none

/-- One round of the drain loop, up to the next `rx_offset`: it fails if it reads a byte
outside the area. -/
def receive (area : RxArea) (rxOffset : UInt32) : Option (List UInt8 × UInt32) := do
  let _header ← word area rxOffset.toNat
  let length ← word area (rxOffset.toNat + 2)
  let packetLen := (length - 4).toNat
  let packet ← area.read (rxOffset.toNat + 4) packetLen
  let offset := (rxOffset + length.toUInt32 + 4 + 3) &&& ~~~3
  return (packet, if offset ≥ 8192 then offset - 8192 else offset)

/-! ## The ring between them -/

structure Ring where
  area : RxArea
  /-- Where the device puts the next frame. -/
  deviceOffset : Nat
  /-- The frames `main` has not given back yet, oldest first. -/
  waiting : List Record
  /-- The frames it has given back. -/
  taken : List (List UInt8)
  rxOffset : UInt32
  capr : UInt16
  page : Page

inductive RingAct where
  | arrive (status : UInt16) (frame : List UInt8)
  | receive

namespace Ring

/-- The device writes where no frame waits; `main` copies a packet to the page. -/
def step (ring : Ring) : RingAct → Option Ring
  | .arrive status frame =>
    let record : Record := ⟨ring.deviceOffset, status, frame⟩
    if record.Sized ∧ ∀ other ∈ ring.waiting, record.Apart other then
      some { ring with
        area := ring.area.write record.offset record.bytes
        deviceOffset := record.next
        waiting := ring.waiting ++ [record] }
    else none
  | .receive =>
    match ring.waiting with
    | [] => none
    | record :: rest => (Rtl8139.receive ring.area ring.rxOffset).map fun (packet, offset) =>
      { ring with
        waiting := rest
        taken := ring.taken ++ [record.frame]
        rxOffset := offset
        capr := (offset - 16).toUInt16
        page := ring.page.write Area.rx.offset packet }

def start (area : RxArea) (page : Page) : Ring := ⟨area, 0, [], [], 0, 0, page⟩

end Ring

abbrev RingRun (area : RxArea) (page : Page) := Base.Run Ring.step (Ring.start area page)

/-! ## The arithmetic of the offset -/

theorem mask_toNat (offset : UInt32) : (offset &&& ~~~3).toNat = offset.toNat / 4 * 4 := by
  have mask : (~~~3 : UInt32).toNat = (2 ^ 30 - 1) * 2 ^ 2 := by decide
  rw [UInt32.toNat_and, mask]
  exact Base.Bytes.and_mask offset.toNat_lt

theorem stride_mod (length : Nat) : stride length % 4 = 0 := Nat.mul_mod_left _ 4

/-- From an aligned offset in the ring and with lengths up to 1522, one subtraction is the modulus. -/
theorem advanced_toNat {rxOffset : UInt32} (length : UInt32) (aligned : rxOffset.toNat % 4 = 0)
    (inside : rxOffset.toNat < 8192) (short : length.toNat ≤ 1522) :
    (let offset := (rxOffset + length + 4 + 3) &&& ~~~3
      if offset ≥ 8192 then offset - 8192 else offset).toNat = (rxOffset.toNat + stride length.toNat) % 8192 := by
  have sum : (rxOffset + length + 4 + 3).toNat = rxOffset.toNat + length.toNat + 7 := by
    rw [UInt32.toNat_add, UInt32.toNat_add, UInt32.toNat_add]
    show (((rxOffset.toNat + length.toNat) % 2 ^ 32 + 4) % 2 ^ 32 + 3) % 2 ^ 32 = _
    omega
  have rounded : ((rxOffset + length + 4 + 3) &&& ~~~3).toNat = rxOffset.toNat + stride length.toNat := by
    rw [mask_toNat, sum, stride]
    omega
  have bound : stride length.toNat ≤ 1528 := by
    unfold stride
    omega
  have full : (8192 : UInt32).toNat = 8192 := rfl
  dsimp only
  split
  next wraps =>
    have reached := UInt32.le_iff_toNat_le.mp wraps
    rw [full, rounded] at reached
    rw [UInt32.toNat_sub_of_le _ _ wraps, rounded, full]
    omega
  next fits =>
    have below : ¬ (8192 : UInt32).toNat ≤ _ := fun reached => fits (UInt32.le_iff_toNat_le.mpr reached)
    rw [full, rounded] at below
    rw [rounded]
    omega

theorem frameLength_toNat {frame : List UInt8} (short : frame.length ≤ 1522) :
    (UInt32.ofNat frame.length).toNat = frame.length :=
  UInt32.toNat_ofNat_of_lt (Nat.lt_of_le_of_lt short (by decide))

theorem nextOffset_toNat {rxOffset : UInt32} {frame : List UInt8} (aligned : rxOffset.toNat % 4 = 0)
    (inside : rxOffset.toNat < 8192) (short : frame.length ≤ 1522) :
    (nextOffset rxOffset frame).toNat = (rxOffset.toNat + stride frame.length) % 8192 := by
  have length := frameLength_toNat short
  have advanced := advanced_toNat (UInt32.ofNat frame.length) aligned inside (by omega)
  rw [length] at advanced
  exact advanced

theorem capr_toNat (offset : UInt32) : ((offset - 16).toUInt16.toNat : Int) = (offset.toNat - 16 : Int) % 2 ^ 16 := by
  have bound := offset.toNat_lt
  rw [UInt32.toNat_toUInt16, UInt32.toNat_sub]
  show (((2 ^ 32 - 16 + offset.toNat) % 2 ^ 32 % 2 ^ 16 : Nat) : Int) = _
  omega

/-! ## The frames that wait -/

inductive Queued (area : RxArea) : Nat → List Record → Nat → Prop where
  | empty (offset : Nat) : Queued area offset [] offset
  | more {record : Record} {rest : List Record} {last : Nat} (sized : record.Sized)
      (stands : area.read record.offset record.bytes.length = some record.bytes)
      (behind : Queued area record.next rest last) : Queued area record.offset (record :: rest) last

theorem Queued.append {area : RxArea} {first : Nat} {records : List Record} {record : Record}
    (queued : Queued area first records record.offset) (sized : record.Sized)
    (stands : area.read record.offset record.bytes.length = some record.bytes) :
    Queued area first (records ++ [record]) record.next := by
  generalize last : record.offset = offset at queued
  induction queued with
  | empty offset =>
    subst last
    exact .more sized stands (.empty _)
  | more firstSized firstStands _ ih => exact .more firstSized firstStands (ih last)

theorem Queued.write {area : RxArea} {first last : Nat} {records : List Record} {record : Record}
    (queued : Queued area first records last) (apart : ∀ other ∈ records, record.Apart other) :
    Queued (area.write record.offset record.bytes) first records last := by
  induction queued with
  | empty offset => exact .empty offset
  | more sized stands _ ih =>
    apply Queued.more sized
    · rw [Base.Buffer.read_write_disjoint _ (apart _ List.mem_cons_self)]
      exact stands
    · exact ih fun other member => apart other (List.mem_cons_of_mem _ member)

theorem Queued.first {area : RxArea} {first last : Nat} {record : Record} {rest : List Record}
    (queued : Queued area first (record :: rest) last) :
    first = record.offset ∧ record.Sized ∧ area.read record.offset record.bytes.length = some record.bytes ∧
      Queued area record.next rest last := by
  cases queued with
  | more sized stands behind => exact ⟨rfl, sized, stands, behind⟩

theorem Queued.last_lt {area : RxArea} {first last : Nat} {records : List Record}
    (queued : Queued area first records last) (inside : first < 8192) : last < 8192 := by
  induction queued with
  | empty offset => exact inside
  | more _ _ _ ih => exact ih (Nat.mod_lt _ (by decide))

section Reads

variable {area : RxArea} {record : Record} (stands : area.read record.offset record.bytes.length = some record.bytes)

include stands

theorem word_status : word area record.offset = some (((record.status >>> 8).toUInt8.toUInt16 <<< 8) |||
    record.status.toUInt8.toUInt16) := by
  have part := Base.Buffer.read_part stands 0 2 (by rw [record.bytes_length]; omega)
  rw [Nat.add_zero] at part
  rw [word, part]
  rfl

theorem word_length : word area (record.offset + 2) = some record.length := by
  have part := Base.Buffer.read_part stands 2 2 (by rw [record.bytes_length]; omega)
  rw [word, part]
  exact congrArg some (Base.Bytes.word16_split record.length)

/-- A round of the loop at a record returns its frame without the checksum. -/
theorem receive_record {rxOffset : UInt32} (found : rxOffset.toNat = record.offset) (sized : record.Sized) :
    receive area rxOffset =
      some (record.frame.take (record.frame.length - 4), nextOffset rxOffset record.frame) := by
  obtain ⟨atLeast, atMost⟩ := sized
  have length : record.length.toNat = record.frame.length :=
    UInt16.toNat_ofNat_of_lt (Nat.lt_of_le_of_lt atMost (by decide))
  have packetLen : (record.length - 4).toNat = record.frame.length - 4 := by
    rw [UInt16.toNat_sub_of_le, length]
    · rfl
    · rw [UInt16.le_iff_toNat_le, length]
      exact atLeast
  have part := Base.Buffer.read_part stands 4 (record.frame.length - 4)
    (by rw [record.bytes_length]; omega)
  have widened : record.length.toUInt32 = UInt32.ofNat record.frame.length := by
    apply UInt32.toNat_inj.mp
    rw [UInt16.toNat_toUInt32, length, frameLength_toNat atMost]
  unfold receive nextOffset
  simp only [found, word_status stands, word_length stands, Option.bind_eq_bind, Option.bind_some, packetLen,
    part, widened]
  rfl

end Reads

namespace Ring

/-! ## In every state -/

/-- The offset by the frames given back, and the frames that wait from it on. -/
structure Kept (ring : Ring) : Prop where
  summed : ring.rxOffset.toNat = (ring.taken.map fun frame => stride frame.length).sum % 8192
  queued : Queued ring.area ring.rxOffset.toNat ring.waiting ring.deviceOffset
  acknowledged : ring.taken ≠ [] → ring.capr = (ring.rxOffset - 16).toUInt16

variable {ring after : Ring} {act : RingAct}

theorem sum_strides_mod (frames : List (List UInt8)) : (frames.map fun frame => stride frame.length).sum % 4 = 0 := by
  induction frames with
  | nil => rfl
  | cons frame rest ih =>
    rw [List.map_cons, List.sum_cons, Nat.add_mod, stride_mod, ih]

theorem Kept.inside (kept : ring.Kept) : ring.rxOffset.toNat < 8192 := by
  rw [kept.summed]
  exact Nat.mod_lt _ (by decide)

theorem Kept.aligned (kept : ring.Kept) : ring.rxOffset.toNat % 4 = 0 := by
  rw [kept.summed, Nat.mod_mod_of_dvd _ (by decide : 4 ∣ 8192)]
  exact sum_strides_mod _

theorem Kept.received (kept : ring.Kept) {record : Record} {rest : List Record}
    (waits : ring.waiting = record :: rest) :
    receive ring.area ring.rxOffset =
      some (record.frame.take (record.frame.length - 4), nextOffset ring.rxOffset record.frame) := by
  have queued := kept.queued
  rw [waits] at queued
  obtain ⟨found, sized, stands, _⟩ := queued.first
  exact receive_record stands found sized

theorem start_kept (area : RxArea) (page : Page) : (start area page).Kept :=
  ⟨rfl, .empty 0, fun some => absurd rfl some⟩

theorem Kept.arrive (kept : ring.Kept) {status : UInt16} {frame : List UInt8}
    (taken : ring.step (.arrive status frame) = some after) : after.Kept := by
  unfold step at taken
  dsimp only at taken
  split at taken
  next allowed =>
    obtain ⟨sized, apart⟩ := allowed
    obtain rfl := Option.some.inj taken
    have room := kept.queued.last_lt kept.inside
    refine ⟨kept.summed, ?_, kept.acknowledged⟩
    apply Queued.append (kept.queued.write apart) sized
    apply Base.Buffer.read_write_same
    rw [Record.bytes_length]
    have short := sized.2
    dsimp only at short ⊢
    omega
  next => cases taken

theorem Kept.receive (kept : ring.Kept) (taken : ring.step .receive = some after) : after.Kept := by
  unfold step at taken
  dsimp only at taken
  split at taken
  next => cases taken
  next record rest waits =>
    have queued := kept.queued
    rw [waits] at queued
    obtain ⟨found, sized, stands, behind⟩ := queued.first
    rw [kept.received waits] at taken
    obtain rfl := Option.some.inj taken
    have moved := nextOffset_toNat kept.aligned kept.inside sized.2
    constructor
    · dsimp only
      rw [moved, kept.summed, List.map_append, List.sum_append, List.map_singleton, List.sum_singleton, Nat.mod_add_mod]
    · dsimp only
      rw [moved, found]
      exact behind
    · exact fun _ => rfl

theorem Kept.step (kept : ring.Kept) (taken : ring.step act = some after) : after.Kept := by
  cases act with
  | arrive status frame => exact kept.arrive taken
  | receive => exact kept.receive taken

def nextRecord (ring : Ring) : Nat := (ring.waiting.head?.map Record.offset).getD ring.deviceOffset

/-- The offset of `main` is the sum of the strides of the frames so far modulo the size of the
ring, and the place of the next frame; the register has it less 16; and the round for a frame
that waits reads it from the receive area and copies at most 2048 bytes. -/
structure Tracked (ring : Ring) : Prop where
  summed : ring.rxOffset.toNat = (ring.taken.map fun frame => stride frame.length).sum % 8192
  found : ring.rxOffset.toNat = ring.nextRecord
  aligned : ring.rxOffset.toNat % 4 = 0
  inside : ring.rxOffset.toNat < 8192
  acknowledged : ring.taken ≠ [] → (ring.capr.toNat : Int) = (ring.rxOffset.toNat - 16 : Int) % 2 ^ 16
  received : ∀ record ∈ ring.waiting.head?, ∃ packet offset,
    Rtl8139.receive ring.area ring.rxOffset = some (packet, offset) ∧
    packet = record.frame.take (record.frame.length - 4) ∧
    Region.Within ⟨ring.rxOffset.toNat, 4 + packet.length⟩ ⟨0, 16384⟩ ∧
    Region.Within ⟨Area.rx.offset, packet.length⟩ ⟨0, 2048⟩

theorem Kept.found (kept : ring.Kept) : ring.rxOffset.toNat = ring.nextRecord := by
  have queued := kept.queued
  unfold nextRecord
  cases waits : ring.waiting with
  | nil =>
    rw [waits] at queued
    generalize ring.rxOffset.toNat = first at queued
    cases queued
    rfl
  | cons record rest =>
    rw [waits] at queued
    exact queued.first.1

theorem Kept.tracked (kept : ring.Kept) : ring.Tracked where
  summed := kept.summed
  found := kept.found
  aligned := kept.aligned
  inside := kept.inside
  acknowledged := by
    intro some
    rw [kept.acknowledged some]
    exact capr_toNat _
  received := by
    intro record first
    obtain ⟨rest, waits⟩ := List.head?_eq_some_iff.mp first
    have queued := kept.queued
    rw [waits] at queued
    obtain ⟨_, ⟨_, short⟩, _⟩ := queued.first
    have inside := kept.inside
    have length : (record.frame.take (record.frame.length - 4)).length = record.frame.length - 4 := by
      rw [List.length_take]
      omega
    refine ⟨_, _, kept.received waits, rfl, ⟨Nat.zero_le _, ?_⟩, ⟨Nat.zero_le _, ?_⟩⟩
    · show ring.rxOffset.toNat + (4 + List.length _) ≤ 0 + 16384
      omega
    · show 0 + List.length _ ≤ 0 + 2048
      omega

variable {area : RxArea} {page : Page} {history : List (Ring × RingAct)}

theorem tracked_of_run (run : RingRun area page history ring) : ring.Tracked :=
  (run.always Kept (start_kept area page) fun kept taken => kept.step taken).tracked

theorem tracked_after_one : ∃ history, ∃ ring : Ring, RingRun (fun _ => 0) (fun _ => 0) history ring ∧
    ring.taken.length = 1 ∧ ring.waiting.length = 1 ∧ ring.rxOffset = 72 ∧ ring.Tracked := by
  obtain ⟨history, ring, run, _, _, reached⟩ :=
    Base.Run.of_check step (fun _ _ => true) (start (fun _ => 0) (fun _ => 0))
    [.arrive 1 (List.replicate 66 7), .arrive 1 (List.replicate 64 1), .receive]
    (fun ring => ring.taken.length = 1 ∧ ring.waiting.length = 1 ∧ ring.rxOffset = 72) (by decide +kernel)
  obtain ⟨taken, waiting, offset⟩ := of_decide_eq_true reached
  exact ⟨history, ring, run, taken, waiting, offset, tracked_of_run run⟩

/-! ## The list of frames -/

/-- The device with a list of frames has those that wait here, and `main` is at the same offset. -/
structure Follows (ring : Ring) (state : State) : Prop where
  frames : state.nic.ring = ring.waiting.map Record.frame
  offset : state.rxOffset = ring.rxOffset
  capr : state.nic.capr = ring.capr

variable {state : State}

theorem Follows.arrive (follows : ring.Follows state) (txBufPhys : UInt64) {status : UInt16} {frame : List UInt8}
    (taken : ring.step (.arrive status frame) = some after) :
    ∃ next, state.step txBufPhys (.arrive frame) = some next ∧ after.Follows next := by
  unfold Ring.step at taken
  dsimp only at taken
  split at taken
  next =>
    obtain rfl := Option.some.inj taken
    refine ⟨_, rfl, ?_, follows.offset, follows.capr⟩
    show state.nic.ring ++ [frame] = _
    rw [follows.frames, List.map_append]
    rfl
  next => cases taken

/-- A round of the loop takes three steps there: it finds the ring filled, copies the frame and
moves the offset on. -/
theorem Follows.receive (follows : ring.Follows state) (kept : ring.Kept) (polls : state.main = .polling)
    (taken : ring.step .receive = some after) :
    ∃ next, (state.mainStep.bind fun found => found.mainStep.bind State.mainStep) = some next ∧ next.main = .polling ∧
      after.Follows next := by
  unfold Ring.step at taken
  dsimp only at taken
  split at taken
  next => cases taken
  next record rest waits =>
    have frames := follows.frames
    rw [waits, List.map_cons] at frames
    rw [kept.received waits] at taken
    obtain rfl := Option.some.inj taken
    have found : state.mainStep = some { state with main := .announcing record.frame } := by
      unfold State.mainStep
      rw [polls, frames]
    rw [found]
    refine ⟨_, rfl, rfl, ?_, ?_, ?_⟩
    · show state.nic.ring.tail = rest.map Record.frame
      rw [frames]
      rfl
    · show nextOffset state.rxOffset record.frame = _
      rw [follows.offset]
    · show (nextOffset state.rxOffset record.frame - 16).toUInt16 = _
      rw [follows.offset]

end Ring

end ElseOS.Rtl8139
